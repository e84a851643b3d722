import MeshcoreSim.Lib.Run
import MeshcoreSim.TopologyFile

/-!
The topology editor of the workbench (`workbench/topology_editor.py`, with `state.py`,
`map_helpers.py` and what `app.py` sets up), for a session with a topology file.

The map is the list of its layers. An object of the source that is compared with `is` has a number
of its own: the edges, and the layers. The edges of `edge_layers` are kept with the ends that they
have had since they were added.

The dialogs are modal, so a dialog is one event, the click on its `Save` or `Delete` with what the
fields hold, for a node or an edge that is listed. A save waits for the browser at every marker,
and anything may happen in between: `markerRead` is one answer, with any marker and any position,
and `write` is what follows the last one; a node that comes or goes in between ends the save before
it, since its loop is over the markers. The badges of the sidebar are left out: they are drawn with
their list, and not again with every change. The latitudes and longitudes of the circular layout
are a parameter.
-/

namespace MeshcoreSim

open Lib

/-! ### State -/

/-- A latitude and a longitude. -/
abbrev Position := ℚ × ℚ

/-- The number of a layer of the map. -/
abbrev Layer := ℕ

structure EdgeObject where
  id : ℕ
  config : EdgeConfig

/-- An entry of `edge_layers`. -/
structure EdgeLayer where
  edge : ℕ
  a : NodeName
  b : NodeName
  layer : Layer

/-- What `AppState` holds about the topology and its map. -/
structure EditorState where
  nodes : List NodeConfig
  edges : List EdgeObject
  simulation : SimulationConfig
  radio : Option RadioParams
  topologyPath : String
  /-- what the file at `topologyPath` holds -/
  file : JsonDoc
  dirty : Bool
  markers : Dict NodeName Layer
  edgeLayers : List EdgeLayer
  positions : Dict NodeName Position
  /-- the layers that the map shows -/
  mapLayers : List Layer
  nextLayer : ℕ
  nextEdge : ℕ
  /-- `place_mode['active']` -/
  placing : Bool
  /-- the calls of `leaflet_map.on('map-click', ..)` -/
  clickHandlers : ℕ

namespace EditorState

def names (s : EditorState) : List NodeName := s.nodes.map (·.name)

/-- `state.topology`. -/
def topology (s : EditorState) : TopologyParams :=
  ⟨s.nodes, s.edges.map (·.config), s.simulation, s.radio⟩

end EditorState

/-! ### The map -/

/-- `has_geo`: every node has a latitude and a longitude, which are not both zero. -/
def hasGeo (nodes : List NodeConfig) : Bool :=
  !nodes.isEmpty && nodes.all fun n =>
    n.lat.isSome && n.lon.isSome && !(n.lat = some 0 && n.lon = some 0)

/-- `circular_positions`; `circle n i` is the place of the node number `i` of `n`. -/
def circularPositions (circle : ℕ → ℕ → Position) (nodes : List NodeConfig) :
    Dict NodeName Position :=
  .ofList (nodes.zipIdx.map fun (n, i) => (n.name, circle nodes.length i))

def nodePositions (circle : ℕ → ℕ → Position) (nodes : List NodeConfig) :
    Dict NodeName Position :=
  if hasGeo nodes then .ofList (nodes.map fun n => (n.name, (n.lat.getD 0, n.lon.getD 0)))
  else circularPositions circle nodes

namespace EditorState

/-- A new layer of the map. -/
def addLayer (s : EditorState) : Layer × EditorState :=
  (s.nextLayer, { s with mapLayers := s.mapLayers ++ [s.nextLayer], nextLayer := s.nextLayer + 1 })

def removeLayer (s : EditorState) (layer : Layer) : EditorState :=
  { s with mapLayers := s.mapLayers.erase layer }

/-- The polyline of an edge, if both ends have a position. -/
def drawEdge (s : EditorState) (edge : EdgeObject) : EditorState :=
  if (s.positions.get? edge.config.a).isSome && (s.positions.get? edge.config.b).isSome then
    let (layer, s) := s.addLayer
    { s with edgeLayers := s.edgeLayers ++ [⟨edge.id, edge.config.a, edge.config.b, layer⟩] }
  else s

/-- The marker of a node, if it has a position. -/
def drawNode (s : EditorState) (node : NodeConfig) : EditorState :=
  if (s.positions.get? node.name).isSome then
    let (layer, s) := s.addLayer
    { s with markers := s.markers.set node.name layer }
  else s

/-- `render_topology`: the edges first. -/
def renderTopology (s : EditorState) : EditorState :=
  s.nodes.foldl drawNode (s.edges.foldl drawEdge s)

/-- The edges of a file, with their numbers. -/
def numbered (edges : List EdgeConfig) : List EdgeObject :=
  edges.zipIdx.map fun (config, id) => ⟨id, config⟩

/-- A session before its topology is rendered. -/
def start (circle : ℕ → ℕ → Position) (topologyPath : String) (file : JsonDoc)
    (topo : TopologyParams) : EditorState where
  nodes := topo.nodes
  edges := numbered topo.edges
  simulation := topo.simulation
  radio := topo.radio
  topologyPath := topologyPath
  file := file
  dirty := false
  markers := .empty
  edgeLayers := []
  positions := nodePositions circle topo.nodes
  mapLayers := []
  nextLayer := 0
  nextEdge := topo.edges.length
  placing := false
  clickHandlers := 0

/-- What `app.py` makes of a topology file. -/
def load? (circle : ℕ → ℕ → Position) (now : ℤ) (topologyPath : String) (file : JsonDoc) :
    Option EditorState :=
  (loadTopology now file).map fun topo => (start circle topologyPath file topo).renderTopology

end EditorState

/-! ### Dialogs -/

/-- The white space that `str.strip` removes. -/
def isPyWhitespace (c : Char) : Bool :=
  ('\t' ≤ c && c ≤ '\r') || ('\x1c' ≤ c && c ≤ ' ') || c = '\x85' || c = '\u00a0' ||
    c = '\u1680' || ('\u2000' ≤ c && c ≤ '\u200a') || c = '\u2028' || c = '\u2029' ||
    c = '\u202f' || c = '\u205f' || c = '\u3000'

/-- `s.strip()`. -/
def pyStrip (s : String) : String :=
  .ofList (((s.toList.dropWhile isPyWhitespace).reverse.dropWhile isPyWhitespace).reverse)

/-- The fields of `_node_edit_dialog`. -/
structure NodeForm where
  name : String
  relay : Bool
  roomServer : Bool
  lat : Option ℚ
  lon : Option ℚ
  prvKey : String

/-- The fields of `_edge_edit_dialog`; the two lists only where the edge is new. -/
structure EdgeForm where
  a : NodeName
  b : NodeName
  loss : Option ℚ
  latencyMs : Option ℚ
  snr : Option ℚ
  aToB : DirectionalOverrides
  bToA : DirectionalOverrides

/-- `do_save` of a node. -/
def NodeForm.save (form : NodeForm) (node : NodeConfig) : NodeConfig :=
  { node with
    name := pyStrip form.name
    relay := form.relay
    roomServer := form.roomServer
    lat := form.lat
    lon := form.lon
    prvKey := if pyStrip form.prvKey = "" then none else some (pyStrip form.prvKey) }

/-- `_build_dir`. -/
def buildDir (o : DirectionalOverrides) : Option DirectionalOverrides :=
  if o.loss = none ∧ o.latencyMs = none ∧ o.snr = none then none else some o

/-- `do_save` of an edge. -/
def EdgeForm.save (form : EdgeForm) (isNew : Bool) (edge : EdgeConfig) : EdgeConfig :=
  { edge with
    a := if isNew then form.a else edge.a
    b := if isNew then form.b else edge.b
    loss := form.loss.getD 0
    latencyMs := form.latencyMs.getD 0
    snr := form.snr.getD 6
    aToB := buildDir form.aToB
    bToA := buildDir form.bToA }

/-! ### Handlers -/

/-- What the user is shown: a notification, or a dialog for a new node. -/
inductive Shown where
  | notify (text : String)
  | dialog
  deriving DecidableEq, Repr

namespace EditorState

variable (s : EditorState)

/-- `on_save` of a new node. -/
def onNodeAdded (node : NodeConfig) : EditorState × List Shown :=
  if node.name = "" then (s, [.notify "Node name is required"])
  else if s.nodes.any fun n => n.name = node.name then
    (s, [.notify s!"Node '{node.name}' already exists"])
  else
    let pos := (node.lat.getD 0, node.lon.getD 0)
    let (marker, s) :=
      { s with nodes := s.nodes ++ [node], positions := s.positions.set node.name pos }.addLayer
    ({ s with markers := s.markers.set node.name marker, dirty := true }, [])

/-- `state.markers.pop(name, None)`, and what it takes from the map. -/
def popMarker (name : NodeName) : EditorState :=
  match s.markers.get? name with
  | some marker => { s.removeLayer marker with markers := s.markers.erase name }
  | none => s

/-- `_on_node_deleted`. -/
def onNodeDeleted (name : NodeName) : EditorState :=
  let touches := fun e : EdgeLayer => e.a = name || e.b = name
  let gone := s.edgeLayers.filter touches
  { gone.foldl (fun s e => s.removeLayer e.layer) (s.popMarker name) with
    nodes := s.nodes.filter fun n => n.name ≠ name
    edges := s.edges.filter fun e => e.config.a ≠ name ∧ e.config.b ≠ name
    edgeLayers := s.edgeLayers.filter fun e => !touches e
    positions := s.positions.erase name
    dirty := true }

/-- `on_save` of a new edge. -/
def onEdgeAdded (config : EdgeConfig) : EditorState × List Shown :=
  if config.a = config.b then (s, [.notify "Cannot connect a node to itself"])
  else if s.edges.any fun e => (e.config.a = config.a && e.config.b = config.b) ||
      (e.config.a = config.b && e.config.b = config.a) then
    (s, [.notify "Edge already exists"])
  else
    let edge : EdgeObject := ⟨s.nextEdge, config⟩
    let s := { s with edges := s.edges ++ [edge], nextEdge := s.nextEdge + 1 }
    ({ s.drawEdge edge with dirty := true }, [])

/-- `_on_edge_deleted`. -/
def onEdgeDeleted (edge : EdgeObject) : EditorState :=
  let gone := s.edgeLayers.filter fun e => e.edge = edge.id
  { gone.foldl (fun s e => s.removeLayer e.layer) s with
    edges := s.edges.filter fun e =>
      ¬ (e.config.a = edge.config.a ∧ e.config.b = edge.config.b)
    edgeLayers := s.edgeLayers.filter fun e => e.edge ≠ edge.id
    dirty := true }

/-- `_toggle_place_mode`. -/
def togglePlaceMode : EditorState × List Shown :=
  if s.placing then ({ s with placing := false }, [.notify "Placement mode off"])
  else ({ s with placing := true, clickHandlers := s.clickHandlers + 1 },
    [.notify "Click on the map to place a new node"])

/-- `on_map_click`. -/
def onMapClick : EditorState × List Shown :=
  if s.placing then ({ s with placing := false }, [.dialog]) else (s, [])

/-- A click runs every handler. -/
def mapClick : ℕ → EditorState → EditorState × List Shown
  | 0, s => (s, [])
  | handlers + 1, s =>
      let (s, shown) := s.onMapClick
      let (s, shown') := mapClick handlers s
      (s, shown ++ shown')

/-- `_handle_save`, what one answer of the browser changes. -/
def markerRead (name : NodeName) (position : Position) : EditorState :=
  { s with
    positions := s.positions.set name position
    nodes := s.nodes.modify (s.nodes.findIdx fun n => n.name = name) fun n =>
      { n with lat := some position.1, lon := some position.2 } }

/-- `_handle_save`, after the last marker. -/
def write : EditorState := { s with file := topologyToDict s.topology, dirty := false }

/-- A marker in a save, where the browser answers or does not. -/
def readMarker (answer : NodeName → Option Position) (name : NodeName) : EditorState :=
  match answer name with
  | some position => s.markerRead name position
  | none => s

/-- `_handle_save` without anything in between; `answer` is where the browser has a marker, if it
answers. -/
def save (answer : NodeName → Option Position) : EditorState :=
  (s.markers.keys.foldl (fun s name => s.readMarker answer name) s).write

end EditorState

/-- What happens in a session. -/
inductive EditorEvent where
  | addNode (form : NodeForm)
  | editNode (row : ℕ) (form : NodeForm)
  | deleteNode (row : ℕ)
  | addEdge (form : EdgeForm)
  | editEdge (row : ℕ) (form : EdgeForm)
  | deleteEdge (row : ℕ)
  | togglePlaceMode
  | mapClick
  | markerRead (name : NodeName) (position : Position)
  | write

namespace EditorState

/-- One event. The name of a listed node is read only, and the ends of a new edge are chosen from
the names of the nodes. -/
def step (s : EditorState) : EditorEvent → Option (EditorState × List Shown)
  | .addNode form => some (s.onNodeAdded (form.save (.named "")))
  | .editNode row form => s.nodes[row]?.map fun node =>
      ({ s with
        nodes := s.nodes.set row (NodeForm.save { form with name := node.name } node)
        dirty := true }, [])
  | .deleteNode row => s.nodes[row]?.map fun node => (s.onNodeDeleted node.name, [])
  | .addEdge form =>
      if s.nodes.length < 2 then
        some (s, [.notify "Need at least 2 nodes to add an edge"])
      else if form.a ∈ s.names ∧ form.b ∈ s.names then
        some (s.onEdgeAdded (form.save true ⟨form.a, form.b, 0, 0, 6, none, none⟩))
      else none
  | .editEdge row form => s.edges[row]?.map fun edge =>
      ({ s with
        edges := s.edges.set row { edge with config := form.save false edge.config }
        dirty := true }, [])
  | .deleteEdge row => s.edges[row]?.map fun edge => (s.onEdgeDeleted edge, [])
  | .togglePlaceMode => some s.togglePlaceMode
  | .mapClick => some (mapClick s.clickHandlers s)
  | .markerRead name position => some (s.markerRead name position, [])
  | .write => some (s.write, [.notify s!"Saved to {s.topologyPath}"])

/-- `edge_counts`, which the node list computes when it is drawn. -/
def edgeCounts (s : EditorState) : Dict NodeName ℕ :=
  s.edges.foldl (fun counts e => (counts.incr e.config.a).incr e.config.b) .empty

end EditorState

end MeshcoreSim
