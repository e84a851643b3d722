import Mathlib.Data.List.DropRight
import Mathlib.Data.List.Perm.Basic
import MeshcoreSim.TopologyEditor

/-!
Whole sessions of the topology editor, from a loaded file that has a simple graph.

* `Drawn` — the map shows one layer for each drawn node and edge, and no other.
* `session_consistent` — the topology stays a simple graph and the map in step with it, in every
  session.
-/

namespace MeshcoreSim

open Lib
open scoped List

/-! ### Layers -/

def EdgeLayer.object (e : EdgeLayer) : ℕ × NodeName × NodeName := (e.edge, e.a, e.b)

def EdgeObject.object (e : EdgeObject) : ℕ × NodeName × NodeName := (e.id, e.config.a, e.config.b)

namespace EditorState

variable {s : EditorState} {edges : List EdgeObject} {names : List NodeName}

/-- The map shows some edges and nodes. -/
structure Drawn (s : EditorState) (edges : List EdgeObject) (names : List NodeName) : Prop where
  markers : ∀ name, name ∈ s.markers.keys ↔ name ∈ names
  edgeLayers : s.edgeLayers.map EdgeLayer.object = edges.map EdgeObject.object
  layers : s.mapLayers.Perm (s.markers.values ++ s.edgeLayers.map (·.layer))
  distinct : s.mapLayers.Nodup
  fresh : ∀ layer ∈ s.mapLayers, layer < s.nextLayer

theorem Drawn.distinct_concat (drawn : Drawn s edges names) :
    (s.mapLayers ++ [s.nextLayer]).Nodup ∧
      ∀ layer ∈ s.mapLayers ++ [s.nextLayer], layer < s.nextLayer + 1 := by
  constructor
  · refine List.nodup_append.mpr ⟨drawn.distinct, List.nodup_singleton _, ?_⟩
    rintro layer mem _ new rfl
    exact absurd (drawn.fresh layer mem) (by simp [List.mem_singleton.mp new])
  · intro layer mem
    rcases List.mem_append.mp mem with old | new
    · exact (drawn.fresh layer old).trans (Nat.lt_succ_self _)
    · rw [List.mem_singleton.mp new]
      exact Nat.lt_succ_self _

theorem Drawn.drawEdge (drawn : Drawn s edges names) (edge : EdgeObject)
    (a : (s.positions.get? edge.config.a).isSome) (b : (s.positions.get? edge.config.b).isSome) :
    Drawn (s.drawEdge edge) (edges ++ [edge]) names := by
  obtain ⟨distinct, fresh⟩ := drawn.distinct_concat
  rw [EditorState.drawEdge, a, b, Bool.and_self, if_pos rfl]
  refine ⟨drawn.markers, ?_, ?_, distinct, fresh⟩
  · simp only [addLayer, List.map_append, drawn.edgeLayers]
    rfl
  · simp only [addLayer, List.map_append, List.map_cons, List.map_nil, ← List.append_assoc]
    exact drawn.layers.append_right _

theorem Drawn.drawNode (drawn : Drawn s edges names) (node : NodeConfig)
    (known : (s.positions.get? node.name).isSome) (new : node.name ∉ names) :
    Drawn (s.drawNode node) edges (names ++ [node.name]) := by
  obtain ⟨distinct, fresh⟩ := drawn.distinct_concat
  have absent : s.markers.get? node.name = none := by
    rw [← Option.not_isSome_iff_eq_none, ← Dict.mem_keys_iff, drawn.markers]
    exact new
  rw [EditorState.drawNode, if_pos known]
  refine ⟨fun name => ?_, drawn.edgeLayers, ?_, distinct, fresh⟩
  · simp only [addLayer, Dict.keys_set]
    split_ifs with marked
    · exact absurd ((drawn.markers _).mp marked) new
    · rw [List.mem_append, List.mem_append, drawn.markers]
  · simp only [addLayer]
    have perm := s.markers.values_set_perm node.name s.nextLayer
    rw [s.markers.values_erase_of_none absent] at perm
    calc s.mapLayers ++ [s.nextLayer]
        ~ s.nextLayer :: (s.markers.values ++ s.edgeLayers.map (·.layer)) :=
          (List.perm_append_singleton _ _).trans (drawn.layers.cons _)
      _ ~ (s.markers.set node.name s.nextLayer).values ++ s.edgeLayers.map (·.layer) :=
          (perm.append_right _).symm

/-- Layers are removed one by one. -/
theorem foldl_removeLayer (gone : List EdgeLayer) (s : EditorState) :
    gone.foldl (fun s e => s.removeLayer e.layer) s =
      { s with mapLayers := s.mapLayers.diff (gone.map (·.layer)) } := by
  induction gone generalizing s with
  | nil => rfl
  | cons e gone ih => rw [List.foldl_cons, ih, List.map_cons, List.diff_cons]; rfl

theorem append_diff_self (l rest : List Layer) : (l ++ rest).diff l = rest := by
  induction l with
  | nil => exact List.diff_nil _
  | cons layer l ih => rwa [List.cons_append, List.diff_cons, List.erase_cons_head]

theorem map_filter_object {p : ℕ × NodeName × NodeName → Bool} (s : EditorState)
    (same : s.edgeLayers.map EdgeLayer.object = edges.map EdgeObject.object) :
    (s.edgeLayers.filter fun e => p e.object).map EdgeLayer.object =
      (edges.filter fun e => p e.object).map EdgeObject.object := by
  have layers : (s.edgeLayers.map EdgeLayer.object).filter p =
      (s.edgeLayers.filter fun e => p e.object).map EdgeLayer.object := List.filter_map
  have objects : (edges.map EdgeObject.object).filter p =
      (edges.filter fun e => p e.object).map EdgeObject.object := List.filter_map
  rw [← layers, ← objects, same]

/-- Without the layers of the edges that are gone, those of the others are left. -/
theorem diff_perm {layers rest : List Layer} {edgeLayers : List EdgeLayer} (p : EdgeLayer → Bool)
    (perm : layers ~ rest ++ edgeLayers.map (·.layer)) :
    layers.diff ((edgeLayers.filter p).map (·.layer)) ~
      rest ++ (edgeLayers.filter fun e => !p e).map (·.layer) := by
  have split : edgeLayers.map (·.layer) ~ (edgeLayers.filter p).map (·.layer) ++
      (edgeLayers.filter fun e => !p e).map (·.layer) := by
    rw [← List.map_append]
    exact ((List.filter_append_perm p edgeLayers).map _).symm
  have moved : layers ~ (edgeLayers.filter p).map (·.layer) ++
      (rest ++ (edgeLayers.filter fun e => !p e).map (·.layer)) := by
    refine (perm.trans (split.append_left rest)).trans ?_
    rw [← List.append_assoc, ← List.append_assoc]
    exact List.perm_append_comm.append_right _
  exact (moved.diff_right _).trans (.of_eq (append_diff_self _ _))

theorem Drawn.onEdgeDeleted (drawn : Drawn s edges names) {edge : EdgeObject}
    (only : ∀ e ∈ edges, e.id = edge.id ↔ e.config.a = edge.config.a ∧ e.config.b = edge.config.b) :
    Drawn (s.onEdgeDeleted edge)
      (edges.filter fun e => ¬ (e.config.a = edge.config.a ∧ e.config.b = edge.config.b))
      names := by
  rw [EditorState.onEdgeDeleted, foldl_removeLayer]
  refine ⟨drawn.markers, ?_, ?_, drawn.distinct.diff, fun layer mem => ?_⟩
  · refine (map_filter_object (p := fun o => o.1 ≠ edge.id) s drawn.edgeLayers).trans ?_
    refine congrArg _ (List.filter_congr fun e mem => ?_)
    simp [EdgeObject.object, only e mem]
  · simpa using diff_perm (fun e => e.edge = edge.id) drawn.layers
  · exact drawn.fresh layer ((List.diff_subset _ _) mem)

theorem Drawn.popMarker (drawn : Drawn s edges names) (name : NodeName) :
    ∃ markers layers, s.popMarker name = { s with markers := markers, mapLayers := layers } ∧
      (∀ n, n ∈ markers.keys ↔ n ∈ names ∧ n ≠ name) ∧ layers.Sublist s.mapLayers ∧
      layers ~ markers.values ++ s.edgeLayers.map (·.layer) := by
  unfold EditorState.popMarker
  split
  · rename_i marker marked
    refine ⟨_, _, rfl, fun n => ?_, List.erase_sublist, ?_⟩
    · rw [← drawn.markers, Dict.mem_keys_iff, Dict.mem_keys_iff, Dict.get?_erase]
      by_cases same : n = name <;> simp [same]
    · have moved := drawn.layers.trans ((s.markers.values_perm_erase marked).append_right _)
      exact (moved.erase marker).trans (.of_eq (List.erase_cons_head _ _))
  · rename_i unmarked
    refine ⟨_, _, rfl, fun n => ?_, .refl _, drawn.layers⟩
    rw [drawn.markers]
    refine ⟨fun mem => ⟨mem, ?_⟩, And.left⟩
    rintro rfl
    rw [← drawn.markers, Dict.mem_keys_iff, unmarked] at mem
    cases mem

theorem Drawn.onNodeDeleted (drawn : Drawn s edges names) (name : NodeName) :
    Drawn (s.onNodeDeleted name) (edges.filter fun e => e.config.a ≠ name ∧ e.config.b ≠ name)
      (names.filter fun n => n ≠ name) := by
  obtain ⟨markers, layers, popped, marked, sublist, perm⟩ := drawn.popMarker name
  rw [EditorState.onNodeDeleted, popped, foldl_removeLayer]
  refine ⟨fun n => ?_, ?_, ?_, (drawn.distinct.sublist sublist).diff, fun layer mem => ?_⟩
  · rw [marked, List.mem_filter, decide_eq_true_eq]
  · refine (map_filter_object (p := fun o => !(o.2.1 = name || o.2.2 = name)) s
      drawn.edgeLayers).trans ?_
    refine congrArg _ (List.filter_congr fun e _ => ?_)
    by_cases a : e.config.a = name <;> by_cases b : e.config.b = name <;>
      simp [EdgeObject.object, a, b]
  · exact diff_perm _ perm
  · exact drawn.fresh layer (sublist.subset ((List.diff_subset _ _) mem))

/-! ### Names -/

/-- A front part of a list that starts with a kept entry does so too. -/
theorem dropWhile_prefixed {p : Char → Bool} {l m : List Char} (front : l <+: m)
    (kept : m.dropWhile p = m) : l.dropWhile p = l := by
  obtain ⟨rest, rfl⟩ := front
  cases l with
  | nil => rfl
  | cons c l =>
      by_cases dropped : p c
      · have shorter := (List.dropWhile_suffix (l := l ++ rest) p).length_le
        rw [List.cons_append, List.dropWhile_cons_of_pos dropped] at kept
        rw [kept, List.length_cons] at shorter
        omega
      · exact List.dropWhile_cons_of_neg dropped

/-- A name is stripped once. -/
theorem pyStrip_idem (text : String) : pyStrip (pyStrip text) = pyStrip text := by
  have back (l : List Char) : (l.reverse.dropWhile isPyWhitespace).reverse =
      l.rdropWhile isPyWhitespace := rfl
  simp only [pyStrip, String.toList_ofList, back]
  rw [dropWhile_prefixed (List.rdropWhile_prefix _ _) (List.dropWhile_idempotent _ _),
    List.rdropWhile_idempotent]

/-! ### The topology -/

/-- Two edges join the same nodes. -/
def SameEnds (e f : EdgeConfig) : Prop := (e.a = f.a ∧ e.b = f.b) ∨ (e.a = f.b ∧ e.b = f.a)

theorem SameEnds.symm {e f : EdgeConfig} (same : SameEnds e f) : SameEnds f e :=
  same.imp (fun ends => ⟨ends.1.symm, ends.2.symm⟩) fun ends => ⟨ends.2.symm, ends.1.symm⟩

instance : Std.Symm fun e f : EdgeObject => ¬ SameEnds e.config f.config :=
  ⟨fun _ _ apart same => apart same.symm⟩

/-- The topology is a simple graph, with names that can be typed. -/
structure SimpleGraph (s : EditorState) : Prop where
  names : s.names.Nodup
  stripped : ∀ name ∈ s.names, pyStrip name = name
  ends : ∀ e ∈ s.edges, e.config.a ∈ s.names ∧ e.config.b ∈ s.names
  loopless : ∀ e ∈ s.edges, e.config.a ≠ e.config.b
  simple : s.edges.Pairwise fun e f => ¬ SameEnds e.config f.config
  ids : (s.edges.map (·.id)).Nodup
  older : ∀ e ∈ s.edges, e.id < s.nextEdge

/-- The topology and the map agree. -/
structure Consistent (s : EditorState) : Prop where
  graph : SimpleGraph s
  drawn : Drawn s s.edges s.names
  positions : ∀ name ∈ s.names, (s.positions.get? name).isSome
  /-- while a place is chosen, there is someone to take the click -/
  handled : s.placing = true → 0 < s.clickHandlers

variable {s' : EditorState} {shown : List Shown}

theorem forall_object {edges' : List EdgeObject} {P : ℕ × NodeName × NodeName → Prop}
    (same : edges'.map EdgeObject.object = edges.map EdgeObject.object)
    (all : ∀ e ∈ edges, P e.object) : ∀ e ∈ edges', P e.object := by
  have mapped : ∀ o ∈ edges.map EdgeObject.object, P o := List.forall_mem_map.mpr all
  rw [← same] at mapped
  exact List.forall_mem_map.mp mapped

/-- An update that keeps the names, the ends and the map keeps what agrees. -/
theorem Consistent.update (kept : Consistent s)
    (frame : { s' with
      nodes := s.nodes, edges := s.edges, positions := s.positions, file := s.file,
      dirty := s.dirty } = s)
    (names : s'.names = s.names)
    (objects : s'.edges.map EdgeObject.object = s.edges.map EdgeObject.object)
    (placed : ∀ name, (s.positions.get? name).isSome → (s'.positions.get? name).isSome) :
    Consistent s' := by
  have markers : s'.markers = s.markers := (congrArg EditorState.markers frame :)
  have edgeLayers : s'.edgeLayers = s.edgeLayers := (congrArg EditorState.edgeLayers frame :)
  have mapLayers : s'.mapLayers = s.mapLayers := (congrArg EditorState.mapLayers frame :)
  have nextLayer : s'.nextLayer = s.nextLayer := (congrArg EditorState.nextLayer frame :)
  have nextEdge : s'.nextEdge = s.nextEdge := (congrArg EditorState.nextEdge frame :)
  have placing : s'.placing = s.placing := (congrArg EditorState.placing frame :)
  have handlers : s'.clickHandlers = s.clickHandlers := (congrArg EditorState.clickHandlers frame :)
  have pairs : s'.edges.Pairwise fun e f => ¬ SameEnds e.config f.config := by
    have mapped : (s.edges.map EdgeObject.object).Pairwise fun o o' =>
        ¬ ((o.2.1 = o'.2.1 ∧ o.2.2 = o'.2.2) ∨ (o.2.1 = o'.2.2 ∧ o.2.2 = o'.2.1)) :=
      List.pairwise_map.mpr kept.graph.simple
    rw [← objects] at mapped
    exact List.pairwise_map.mp mapped
  have ids : s'.edges.map (·.id) = s.edges.map (·.id) := by
    have mapped := congrArg (List.map Prod.fst) objects
    rwa [List.map_map, List.map_map] at mapped
  refine ⟨⟨?_, ?_, ?_, ?_, pairs, ?_, ?_⟩, ⟨?_, ?_, ?_, ?_, ?_⟩, ?_, ?_⟩
  · exact names ▸ kept.graph.names
  · exact names ▸ kept.graph.stripped
  · rw [names]
    exact forall_object (P := fun o => o.2.1 ∈ s.names ∧ o.2.2 ∈ s.names) objects kept.graph.ends
  · exact forall_object (P := fun o => o.2.1 ≠ o.2.2) objects kept.graph.loopless
  · exact ids ▸ kept.graph.ids
  · rw [nextEdge]
    exact forall_object (P := fun o => o.1 < s.nextEdge) objects kept.graph.older
  · rw [markers, names]
    exact kept.drawn.markers
  · rw [edgeLayers, objects]
    exact kept.drawn.edgeLayers
  · rw [mapLayers, markers, edgeLayers]
    exact kept.drawn.layers
  · exact mapLayers ▸ kept.drawn.distinct
  · rw [mapLayers, nextLayer]
    exact kept.drawn.fresh
  · exact fun name mem => placed name (kept.positions name (names ▸ mem))
  · rw [placing, handlers]
    exact kept.handled

/-- A node is added under a new name, or not at all. -/
theorem onNodeAdded_cases (s : EditorState) (node : NodeConfig) :
    (s.onNodeAdded node).1 = s ∨ node.name ∉ s.names ∧ ∃ pos, (s.onNodeAdded node).1 =
      { EditorState.drawNode { s with
          nodes := s.nodes ++ [node], positions := s.positions.set node.name pos } node with
        dirty := true } := by
  unfold onNodeAdded
  split_ifs with unnamed taken
  · exact .inl rfl
  · exact .inl rfl
  · refine .inr ⟨fun mem => taken ?_, (node.lat.getD 0, node.lon.getD 0), ?_⟩
    · obtain ⟨n, listed, same⟩ := List.mem_map.mp mem
      exact List.any_eq_true.mpr ⟨n, listed, decide_eq_true same⟩
    · rw [EditorState.drawNode, if_pos (by simp)]

theorem Consistent.addNode (kept : Consistent s) (form : NodeForm) :
    Consistent (s.onNodeAdded (form.save (.named ""))).1 := by
  set node := form.save (.named "") with isNode
  rcases s.onNodeAdded_cases node with same | ⟨new, pos, added⟩
  · rw [same]
    exact kept
  · have known : (((s.positions.set node.name pos)).get? node.name).isSome := by simp
    have names : s.names ++ [node.name] = (s.nodes ++ [node]).map (·.name) := by
      simp [EditorState.names]
    have drawn := Drawn.drawNode (s := { s with
      nodes := s.nodes ++ [node], positions := s.positions.set node.name pos })
      { kept.drawn with } node known new
    rw [added]
    rw [EditorState.drawNode, if_pos known] at drawn ⊢
    rw [names] at drawn
    have mono {name : NodeName} (mem : name ∈ s.names) :
        name ∈ (s.nodes ++ [node]).map (·.name) := names ▸ List.mem_append_left _ mem
    have split {name : NodeName} (mem : name ∈ (s.nodes ++ [node]).map (·.name)) :
        name ∈ s.names ∨ name = node.name := by
      rw [← names, List.mem_append, List.mem_singleton] at mem
      exact mem
    refine ⟨⟨?_, ?_, ?_, kept.graph.loopless, kept.graph.simple, kept.graph.ids,
      kept.graph.older⟩, { drawn with }, ?_, kept.handled⟩
    · show ((s.nodes ++ [node]).map (·.name)).Nodup
      rw [← names]
      exact List.nodup_append.mpr ⟨kept.graph.names, List.nodup_singleton _,
        fun name mem name' mem' same => new (List.mem_singleton.mp mem' ▸ same ▸ mem)⟩
    · intro name mem
      rcases split mem with old | rfl
      · exact kept.graph.stripped name old
      · exact pyStrip_idem form.name
    · exact fun e mem => ⟨mono (kept.graph.ends e mem).1, mono (kept.graph.ends e mem).2⟩
    · intro name mem
      rcases split mem with old | rfl
      · show ((s.positions.set node.name pos).get? name).isSome
        rw [Dict.get?_set]
        split_ifs
        · rfl
        · exact kept.positions name old
      · exact known

/-- Writing what is there. -/
theorem set_of_getElem? {α : Type} {l : List α} {i : ℕ} {x : α} (here : l[i]? = some x) :
    l.set i x = l := by
  obtain ⟨inside, rfl⟩ := List.getElem?_eq_some_iff.mp here
  exact List.set_getElem_self inside

theorem Consistent.editNode (kept : Consistent s) {row : ℕ} {node : NodeConfig} (form : NodeForm)
    (listed : s.nodes[row]? = some node) :
    Consistent { s with
      nodes := s.nodes.set row (NodeForm.save { form with name := node.name } node)
      dirty := true } := by
  have mem : node.name ∈ s.names := List.mem_map_of_mem (List.mem_of_getElem? listed)
  have same : (s.nodes.set row (NodeForm.save { form with name := node.name } node)).map
      (·.name) = s.names := by
    rw [List.map_set]
    have name : (NodeForm.save { form with name := node.name } node).name = node.name :=
      kept.graph.stripped node.name mem
    rw [name]
    exact set_of_getElem? (by rw [List.getElem?_map, listed]; rfl)
  exact kept.update rfl same rfl fun _ => id

theorem Consistent.deleteNode (kept : Consistent s) (name : NodeName) :
    Consistent (s.onNodeDeleted name) := by
  have drawn := kept.drawn.onNodeDeleted name
  have names : (s.onNodeDeleted name).names = s.names.filter fun n => n ≠ name :=
    (List.filter_map (p := fun n => decide (n ≠ name)) (f := NodeConfig.name)).symm
  obtain ⟨markers, layers, popped, -⟩ := kept.drawn.popMarker name
  rw [EditorState.onNodeDeleted, popped, foldl_removeLayer] at drawn names ⊢
  have sublist := s.edges.filter_sublist (p := fun e => e.config.a ≠ name ∧ e.config.b ≠ name)
  refine ⟨⟨?_, ?_, ?_, ?_, kept.graph.simple.sublist sublist,
    kept.graph.ids.sublist (sublist.map _), ?_⟩, ?_, ?_, kept.handled⟩
  · rw [names]
    exact kept.graph.names.filter _
  · rw [names]
    exact fun n mem => kept.graph.stripped n (List.mem_of_mem_filter mem)
  · rw [names]
    intro e mem
    obtain ⟨listed, apart⟩ := List.mem_filter.mp mem
    obtain ⟨a, b⟩ := of_decide_eq_true apart
    obtain ⟨memA, memB⟩ := kept.graph.ends e listed
    exact ⟨List.mem_filter.mpr ⟨memA, decide_eq_true a⟩,
      List.mem_filter.mpr ⟨memB, decide_eq_true b⟩⟩
  · exact fun e mem => kept.graph.loopless e (sublist.subset mem)
  · exact fun e mem => kept.graph.older e (sublist.subset mem)
  · rw [names]
    exact drawn
  · rw [names]
    intro n mem
    obtain ⟨listed, other⟩ := List.mem_filter.mp mem
    show ((s.positions.erase name).get? n).isSome
    rw [Dict.get?_erase, if_neg (of_decide_eq_true other)]
    exact kept.positions n listed

theorem Consistent.addEdge (kept : Consistent s) {config : EdgeConfig} (a : config.a ∈ s.names)
    (b : config.b ∈ s.names) : Consistent (s.onEdgeAdded config).1 := by
  unfold onEdgeAdded
  split_ifs with loop taken
  · exact kept
  · exact kept
  · have drawn := Drawn.drawEdge (s := { s with
      edges := s.edges ++ [⟨s.nextEdge, config⟩], nextEdge := s.nextEdge + 1 })
      { kept.drawn with } ⟨s.nextEdge, config⟩ (kept.positions _ a) (kept.positions _ b)
    have both : ((s.positions.get? config.a).isSome &&
        (s.positions.get? config.b).isSome) = true := by
      rw [kept.positions _ a, kept.positions _ b, Bool.and_self]
    simp only [EditorState.drawEdge, if_pos both] at drawn ⊢
    have split {P : EdgeObject → Prop} (old : ∀ e ∈ s.edges, P e) (new : P ⟨s.nextEdge, config⟩) :
        ∀ e ∈ s.edges ++ [⟨s.nextEdge, config⟩], P e := by
      intro e mem
      rcases List.mem_append.mp mem with listed | added
      · exact old e listed
      · exact List.mem_singleton.mp added ▸ new
    refine ⟨⟨kept.graph.names, kept.graph.stripped, split kept.graph.ends ⟨a, b⟩,
      split kept.graph.loopless loop, ?_, ?_, ?_⟩, { drawn with }, kept.positions, kept.handled⟩
    · refine List.pairwise_append.mpr ⟨kept.graph.simple, List.pairwise_singleton _ _, ?_⟩
      intro e mem f new same
      obtain rfl := List.mem_singleton.mp new
      exact taken (List.any_eq_true.mpr ⟨e, mem, by simpa [SameEnds] using same⟩)
    · show ((s.edges ++ [(⟨s.nextEdge, config⟩ : EdgeObject)]).map (·.id)).Nodup
      rw [List.map_append]
      refine List.nodup_append.mpr ⟨kept.graph.ids, List.nodup_singleton _, ?_⟩
      rintro id mem _ new rfl
      obtain ⟨e, listed, rfl⟩ := List.mem_map.mp mem
      exact absurd (kept.graph.older e listed) (by simp [List.mem_singleton.mp new])
    · refine split (fun e mem => (kept.graph.older e mem).trans (Nat.lt_succ_self _)) ?_
      exact Nat.lt_succ_self _

theorem Consistent.editEdge (kept : Consistent s) {row : ℕ} {edge : EdgeObject} (form : EdgeForm)
    (listed : s.edges[row]? = some edge) :
    Consistent { s with
      edges := s.edges.set row { edge with config := form.save false edge.config }
      dirty := true } := by
  refine kept.update rfl rfl ?_ fun _ => id
  rw [List.map_set]
  exact set_of_getElem? (by rw [List.getElem?_map, listed]; rfl)

theorem Consistent.deleteEdge (kept : Consistent s) {edge : EdgeObject} (listed : edge ∈ s.edges) :
    Consistent (s.onEdgeDeleted edge) := by
  have only : ∀ e ∈ s.edges,
      e.id = edge.id ↔ e.config.a = edge.config.a ∧ e.config.b = edge.config.b := by
    intro e mem
    constructor
    · intro same
      rw [List.inj_on_of_nodup_map kept.graph.ids mem listed same]
      exact ⟨rfl, rfl⟩
    · intro same
      by_contra other
      have distinct : e ≠ edge := fun eq => other (congrArg EdgeObject.id eq)
      exact kept.graph.simple.forall mem listed distinct (.inl same)
  have drawn := kept.drawn.onEdgeDeleted only
  rw [EditorState.onEdgeDeleted, foldl_removeLayer] at drawn ⊢
  have sublist := s.edges.filter_sublist
    (p := fun e => ¬ (e.config.a = edge.config.a ∧ e.config.b = edge.config.b))
  exact ⟨⟨kept.graph.names, kept.graph.stripped,
    fun e mem => kept.graph.ends e (sublist.subset mem),
    fun e mem => kept.graph.loopless e (sublist.subset mem), kept.graph.simple.sublist sublist,
    kept.graph.ids.sublist (sublist.map _),
    fun e mem => kept.graph.older e (sublist.subset mem)⟩, drawn, kept.positions, kept.handled⟩

/-- Changing an entry does not change what it keeps. -/
theorem map_modify_of_same {α β : Type} {f : α → α} {g : α → β} (same : ∀ x, g (f x) = g x)
    (l : List α) (i : ℕ) : (l.modify i f).map g = l.map g := by
  refine List.ext_getElem? fun j => ?_
  rw [List.getElem?_map, List.getElem?_map, List.getElem?_modify]
  cases l[j]? with
  | none => rfl
  | some x =>
      by_cases here : i = j
      · simp [here, same]
      · simp [here]

theorem Consistent.markerRead (kept : Consistent s) (name : NodeName) (position : Position) :
    Consistent (s.markerRead name position) := by
  refine kept.update rfl ?_ rfl fun other placed => ?_
  · refine map_modify_of_same (g := NodeConfig.name) (fun n => ?_) s.nodes _
    rfl
  · show ((s.positions.set name position).get? other).isSome
    rw [Dict.get?_set]
    split_ifs
    · rfl
    · exact placed

theorem Consistent.mapClick (kept : Consistent s) (handlers : ℕ) :
    Consistent (mapClick handlers s).1 := by
  induction handlers generalizing s with
  | zero => exact kept
  | succ handlers ih =>
      refine @ih s.onMapClick.1 ?_
      unfold onMapClick
      split_ifs
      · exact ⟨{ kept.graph with }, { kept.drawn with }, kept.positions, nofun⟩
      · exact kept

theorem Consistent.step {e : EditorEvent} (kept : Consistent s)
    (stepped : s.step e = some (s', shown)) : Consistent s' := by
  cases e with
  | addNode form =>
      obtain rfl := congrArg Prod.fst (Option.some.inj stepped)
      exact kept.addNode form
  | editNode row form =>
      obtain ⟨node, listed, same⟩ := Option.map_eq_some_iff.mp stepped
      obtain rfl := congrArg Prod.fst same
      exact kept.editNode form listed
  | deleteNode row =>
      obtain ⟨node, -, same⟩ := Option.map_eq_some_iff.mp stepped
      obtain rfl := congrArg Prod.fst same
      exact kept.deleteNode node.name
  | addEdge form =>
      simp only [EditorState.step] at stepped
      split_ifs at stepped with few chosen
      · obtain rfl := congrArg Prod.fst (Option.some.inj stepped)
        exact kept
      · obtain rfl := congrArg Prod.fst (Option.some.inj stepped)
        exact kept.addEdge chosen.1 chosen.2
  | editEdge row form =>
      obtain ⟨edge, listed, same⟩ := Option.map_eq_some_iff.mp stepped
      obtain rfl := congrArg Prod.fst same
      exact kept.editEdge form listed
  | deleteEdge row =>
      obtain ⟨edge, listed, same⟩ := Option.map_eq_some_iff.mp stepped
      obtain rfl := congrArg Prod.fst same
      exact kept.deleteEdge (List.mem_of_getElem? listed)
  | togglePlaceMode =>
      obtain rfl := congrArg Prod.fst (Option.some.inj stepped)
      unfold togglePlaceMode
      split_ifs
      · exact ⟨{ kept.graph with }, { kept.drawn with }, kept.positions, nofun⟩
      · exact ⟨{ kept.graph with }, { kept.drawn with }, kept.positions, fun _ => Nat.succ_pos _⟩
  | mapClick =>
      obtain rfl := congrArg Prod.fst (Option.some.inj stepped)
      exact kept.mapClick _
  | markerRead name position =>
      obtain rfl := congrArg Prod.fst (Option.some.inj stepped)
      exact kept.markerRead name position
  | write =>
      obtain rfl := congrArg Prod.fst (Option.some.inj stepped)
      exact kept.update rfl rfl rfl fun _ => id

/-! ### Loading -/

end EditorState

/-- A topology that the editor could have drawn: the names are typed, and no edge is a loop or joins
two nodes again. -/
structure TopologyParams.Simple (topo : TopologyParams) : Prop where
  names : (topo.nodes.map (·.name)).Nodup
  stripped : ∀ n ∈ topo.nodes, pyStrip n.name = n.name
  ends : ∀ e ∈ topo.edges, e.a ∈ topo.nodes.map (·.name) ∧ e.b ∈ topo.nodes.map (·.name)
  loopless : ∀ e ∈ topo.edges, e.a ≠ e.b
  simple : topo.edges.Pairwise fun e f => ¬ EditorState.SameEnds e f

namespace EditorState

variable {s s' : EditorState} {edges : List EdgeObject} {names : List NodeName}
  {shown : List Shown}

/-- Every node has a position. -/
theorem isSome_nodePositions (circle : ℕ → ℕ → Position) {nodes : List NodeConfig} {name : NodeName}
    (listed : name ∈ nodes.map (·.name)) : ((nodePositions circle nodes).get? name).isSome := by
  obtain ⟨n, mem, rfl⟩ := List.mem_map.mp listed
  unfold nodePositions
  split_ifs
  · exact Dict.isSome_get?_ofList (e := (n.name, _)) (List.mem_map.mpr ⟨n, mem, rfl⟩)
  · obtain ⟨i, here⟩ := List.mem_iff_getElem?.mp mem
    exact Dict.isSome_get?_ofList (e := (n.name, _))
      (List.mem_map.mpr ⟨(n, i), List.mk_mem_zipIdx_iff_getElem?.mpr here, rfl⟩)

/-- Drawing changes the map alone. -/
def DrawnFrom (s s' : EditorState) : Prop :=
  ∃ markers edgeLayers mapLayers nextLayer, s' = { s with
    markers := markers, edgeLayers := edgeLayers, mapLayers := mapLayers, nextLayer := nextLayer }

theorem DrawnFrom.trans {s'' : EditorState} (first : DrawnFrom s s') (second : DrawnFrom s' s'') :
    DrawnFrom s s'' := by
  obtain ⟨_, _, _, _, rfl⟩ := first
  obtain ⟨_, _, _, _, rfl⟩ := second
  exact ⟨_, _, _, _, rfl⟩

theorem drawnFrom_drawEdge (s : EditorState) (edge : EdgeObject) :
    DrawnFrom s (s.drawEdge edge) := by
  unfold EditorState.drawEdge
  split_ifs <;> exact ⟨_, _, _, _, rfl⟩

theorem drawnFrom_drawNode (s : EditorState) (node : NodeConfig) :
    DrawnFrom s (s.drawNode node) := by
  unfold EditorState.drawNode
  split_ifs <;> exact ⟨_, _, _, _, rfl⟩

theorem drawnFrom_foldl {α : Type} {draw : EditorState → α → EditorState}
    (one : ∀ s x, DrawnFrom s (draw s x)) (l : List α) (s : EditorState) :
    DrawnFrom s (l.foldl draw s) := by
  induction l generalizing s with
  | nil => exact ⟨_, _, _, _, rfl⟩
  | cons x l ih => exact (one s x).trans (ih _)

theorem drawnFrom_render (s : EditorState) : DrawnFrom s s.renderTopology :=
  (drawnFrom_foldl drawnFrom_drawEdge s.edges s).trans
    (drawnFrom_foldl drawnFrom_drawNode s.nodes _)

theorem DrawnFrom.positions (drawn : DrawnFrom s s') : s'.positions = s.positions := by
  obtain ⟨_, _, _, _, rfl⟩ := drawn
  rfl

theorem Drawn.foldl_drawEdge (drawn : Drawn s edges names) (more : List EdgeObject)
    (placed : ∀ e ∈ more, (s.positions.get? e.config.a).isSome ∧
      (s.positions.get? e.config.b).isSome) :
    Drawn (more.foldl EditorState.drawEdge s) (edges ++ more) names := by
  induction more generalizing s edges with
  | nil => simpa using drawn
  | cons edge more ih =>
      obtain ⟨a, b⟩ := placed edge List.mem_cons_self
      rw [List.append_cons]
      refine ih (drawn.drawEdge edge a b) fun e mem => ?_
      rw [(drawnFrom_drawEdge s edge).positions]
      exact placed e (List.mem_cons_of_mem _ mem)

theorem Drawn.foldl_drawNode (drawn : Drawn s edges names) (more : List NodeConfig)
    (placed : ∀ n ∈ more, (s.positions.get? n.name).isSome)
    (distinct : (names ++ more.map (·.name)).Nodup) :
    Drawn (more.foldl EditorState.drawNode s) edges (names ++ more.map (·.name)) := by
  induction more generalizing s names with
  | nil => simpa using drawn
  | cons node more ih =>
      rw [List.map_cons, List.append_cons] at distinct ⊢
      have new : node.name ∉ names := by
        intro mem
        have apart := (List.nodup_append.mp (List.nodup_append.mp distinct).1).2.2
        exact apart node.name mem node.name List.mem_cons_self rfl
      have here := drawn.drawNode node (placed node List.mem_cons_self) new
      refine ih here (fun n mem => ?_) distinct
      rw [(drawnFrom_drawNode s node).positions]
      exact placed n (List.mem_cons_of_mem _ mem)

theorem map_config_numbered (edges : List EdgeConfig) :
    (numbered edges).map (·.config) = edges := by
  rw [numbered, List.map_map]
  exact List.zipIdx_map_fst 0 edges

theorem map_id_numbered (edges : List EdgeConfig) :
    (numbered edges).map (·.id) = List.range edges.length := by
  rw [numbered, List.map_map, List.range_eq_range']
  exact List.zipIdx_map_snd 0 edges

theorem graph_start {circle : ℕ → ℕ → Position} {path : String} {file : JsonDoc}
    {topo : TopologyParams} (simple : topo.Simple) : SimpleGraph (start circle path file topo) := by
  have config : ∀ e ∈ numbered topo.edges, e.config ∈ topo.edges := fun e mem =>
    map_config_numbered topo.edges ▸ List.mem_map_of_mem mem
  refine ⟨simple.names, fun name mem => ?_, fun e mem => simple.ends _ (config e mem),
    fun e mem => simple.loopless _ (config e mem), ?_, ?_, fun e mem => ?_⟩
  · obtain ⟨n, listed, rfl⟩ := List.mem_map.mp mem
    exact simple.stripped n listed
  · have pairs := simple.simple
    rw [← map_config_numbered topo.edges] at pairs
    exact List.pairwise_map.mp pairs
  · show ((numbered topo.edges).map (·.id)).Nodup
    rw [map_id_numbered]
    exact List.nodup_range
  · have mem' : e.id ∈ (numbered topo.edges).map (·.id) := List.mem_map_of_mem mem
    rw [map_id_numbered] at mem'
    exact List.mem_range.mp mem'

/-- The whole topology is rendered. -/
theorem drawn_render {circle : ℕ → ℕ → Position} {path : String} {file : JsonDoc}
    {topo : TopologyParams} (simple : topo.Simple) :
    Drawn (start circle path file topo).renderTopology (numbered topo.edges)
      (topo.nodes.map (·.name)) := by
  set s := start circle path file topo with isStart
  have blank : Drawn s [] [] := ⟨by simp [s, start, Dict.mem_keys_iff, Dict.get?, Dict.empty], rfl,
    .refl _, List.nodup_nil, nofun⟩
  have graph : SimpleGraph s := graph_start simple
  have edges := blank.foldl_drawEdge (numbered topo.edges) fun e mem =>
    ⟨isSome_nodePositions circle (graph.ends e mem).1,
      isSome_nodePositions circle (graph.ends e mem).2⟩
  refine edges.foldl_drawNode topo.nodes (fun n mem => ?_) simple.names
  rw [(drawnFrom_foldl drawnFrom_drawEdge _ s).positions]
  exact isSome_nodePositions circle (List.mem_map_of_mem mem)

/-- A session that starts with a simple graph starts consistent. -/
theorem consistent_load {circle : ℕ → ℕ → Position} {now : ℤ} {path : String} {file : JsonDoc}
    {topo : TopologyParams} (read : loadTopology now file = some topo) (simple : topo.Simple) :
    ∃ s, load? circle now path file = some s ∧ Consistent s := by
  refine ⟨_, congrArg (Option.map _) read, ?_⟩
  have drawn := @drawn_render circle path file topo simple
  have graph := @graph_start circle path file topo simple
  obtain ⟨_, _, _, _, same⟩ := drawnFrom_render (start circle path file topo)
  show Consistent (start circle path file topo).renderTopology
  rw [same] at drawn ⊢
  exact ⟨{ graph with }, drawn, fun name mem => isSome_nodePositions circle mem, nofun⟩

/-! ### What a session shows -/

/-- The node list counts the ends of the edges. -/
theorem getD_edgeCounts (s : EditorState) (name : NodeName) :
    (s.edgeCounts.get? name).getD 0 = s.edges.countP (fun e => e.config.a = name) +
      s.edges.countP (fun e => e.config.b = name) := by
  unfold edgeCounts
  induction s.edges using List.reverseRecOn with
  | nil => rfl
  | append_singleton edges e ih =>
      rw [List.foldl_concat, Dict.get?_incr, Dict.get?_incr, ih]
      simp only [List.countP_append, List.countP_singleton, decide_eq_true_eq, eq_comm (a := name)]
      omega

/-- A node has one link for each end of an edge at it. -/
theorem length_neighbours {config : TopologyConfig} {t : Topology}
    (loaded : Topology.init? config = some t) (name : NodeName) :
    (t.neighbours name).length =
      config.edges.countP (fun e => e.a = name) + config.edges.countP (fun e => e.b = name) := by
  rw [Topology.neighbours_eq loaded, TopologyConfig.directed, Topology.linksFrom, List.length_map,
    ← List.countP_eq_length_filter]
  induction config.edges with
  | nil => rfl
  | cons e edges ih =>
      rw [List.flatMap_cons, List.countP_append, ih, EdgeConfig.directed]
      simp only [List.countP_cons, List.countP_nil, decide_eq_true_eq]
      omega

/-- One click opens one dialog at most. -/
theorem shown_mapClick (handlers : ℕ) (s : EditorState) :
    (mapClick handlers s).2 = if s.placing ∧ 0 < handlers then [.dialog] else [] := by
  induction handlers generalizing s with
  | zero => simp [mapClick]
  | succ handlers ih =>
      simp only [mapClick, ih]
      cases placing : s.placing <;> simp [onMapClick, placing]

/-- Whatever is done in a session, in whatever order, and with the answers of the browser to a save
at any time, a topology that starts as a simple graph stays one that can be simulated. The map shows
it, and a node list that is drawn counts its links. -/
theorem session_consistent {circle : ℕ → ℕ → Position} {now : ℤ} {path : String} {file : JsonDoc}
    {topo : TopologyParams} (read : loadTopology now file = some topo) (simple : topo.Simple) :
    ∃ s₀, load? circle now path file = some s₀ ∧ ∀ s shown, Run step anyStep s₀ s shown →
      Consistent s ∧ (mapClick s.clickHandlers s).2 = (if s.placing then [.dialog] else []) ∧
        ∃ t, s.topology.topology? = some t ∧
          ∀ name, (s.edgeCounts.get? name).getD 0 = (t.neighbours name).length := by
  obtain ⟨s₀, loaded, atStart⟩ := @consistent_load circle now path file topo read simple
  refine ⟨s₀, loaded, fun s shown run => ?_⟩
  have kept : Consistent s := run.invariant (I := fun s _ => Consistent s) atStart
    fun _ _ _ _ _ _ kept _ stepped => kept.step stepped
  refine ⟨kept, ?_, ?_⟩
  · rw [shown_mapClick]
    cases placing : s.placing
    · simp
    · simp [kept.handled placing]
  · have ends : ∀ e ∈ s.topology.edges, e.a ∈ s.topology.nodes.map (·.name) ∧
        e.b ∈ s.topology.nodes.map (·.name) := by
      intro e mem
      obtain ⟨edge, listed, rfl⟩ := List.mem_map.mp mem
      exact kept.graph.ends edge listed
    obtain ⟨t, isTopology⟩ := Option.isSome_iff_exists.mp (isSome_topology? ends)
    refine ⟨t, isTopology, fun name => ?_⟩
    rw [getD_edgeCounts, length_neighbours isTopology]
    simp [EditorState.topology, List.countP_map, Function.comp_def]

/-- Two relays with a link. -/
def pairTopology : TopologyParams where
  nodes := [.named "alice", .named "bob"]
  edges := [⟨"alice", "bob", 0, 0, 6, none, none⟩]
  simulation := ⟨5, 60, 10, 30, 1700000000, "./node_agent/build/node_agent", none, none⟩
  radio := none

/-- What is typed for a node without coordinates. -/
def typedNode (name : String) : NodeForm := ⟨name, true, false, none, none, ""⟩

/-- What is typed for an edge. -/
def typedEdge (a b : NodeName) : EdgeForm :=
  ⟨a, b, none, none, none, ⟨none, none, none⟩, ⟨none, none, none⟩⟩

/-- A session that adds a node with two edges, deletes another one, and edits an edge during a
save. -/
def pairSession : List EditorEvent :=
  [.togglePlaceMode, .mapClick, .addNode (typedNode " carol "),
    .addEdge (typedEdge "carol" "alice"), .addEdge (typedEdge "bob" "carol"),
    .addEdge (typedEdge "alice" "carol"), .deleteNode 0, .markerRead "bob" (53, 20),
    .editEdge 0 (typedEdge "bob" "carol"), .markerRead "carol" (52, 21), .write]

theorem simple_pairTopology : (pairTopology.reread 1700000000).Simple :=
  ⟨by decide, by decide +kernel, by decide, by decide, List.pairwise_singleton _ _⟩

/-- What the session leaves. -/
def pairLeft (r : EditorState × List Shown) : Prop :=
  r.1.names = ["bob", "carol"] ∧ r.1.edges.length = 1 ∧ r.1.dirty = false ∧
    Shown.notify "Edge already exists" ∈ r.2

instance (r : EditorState × List Shown) : Decidable (pairLeft r) :=
  inferInstanceAs (Decidable (_ ∧ _))

/-- The session starts here. -/
def pairStart : EditorState :=
  (start (fun _ _ => (0, 0)) "pair.json" (topologyToDict pairTopology)
    (pairTopology.reread 1700000000)).renderTopology

theorem load?_pair :
    load? (fun _ _ => (0, 0)) 1700000000 "pair.json" (topologyToDict pairTopology) =
      some pairStart :=
  congrArg (Option.map _) (loadTopology_topologyToDict 1700000000 pairTopology)

theorem run_pairSession : ∃ s shown, Run step anyStep pairStart s shown ∧ pairLeft (s, shown) := by
  have replay : (exec (restrict step anyStep) pairStart pairSession).any
      (fun r => decide (pairLeft r)) = true := by decide +kernel
  obtain ⟨s, shown, run, left⟩ := Run.of_exec_any replay
  exact ⟨s, shown, run, of_decide_eq_true left⟩

theorem session_consistent_pair :
    ∃ s shown, Run step anyStep pairStart s shown ∧ pairLeft (s, shown) ∧
    Consistent s := by
  obtain ⟨s, shown, run, left⟩ := run_pairSession
  obtain ⟨s₀, loaded, all⟩ := @session_consistent (fun _ _ => (0, 0)) _ "pair.json" _ _
    (loadTopology_topologyToDict 1700000000 pairTopology) simple_pairTopology
  obtain rfl := Option.some.inj (loaded.symm.trans load?_pair)
  exact ⟨s, shown, run, left, (all s shown run).1⟩

end EditorState

end MeshcoreSim
