import Mathlib.Data.List.Infix
import MeshcoreSim.Lib.Partial
import MeshcoreSim.NodeAgent
import MeshcoreSim.Orchestrator.Tables

/-!
Topology files: `topology_to_dict` and `load_topology` of `orchestrator/config.py`.

`json.dump` and `json.load` are the identity on the values that `topology_to_dict` returns, so a
file is such a value here. The radio parameters are integers of either sign, as in
`MeshcoreSim.NodeAgent`.

* `roundTrips_iff` — nodes, simulation and radio section come back exactly when the noise floor
  is the default one.
* `not_roundTrips_noiseFloor` — a topology whose radio section does not.
* `saved_adjacency` — the links always come back.
-/

namespace MeshcoreSim

open Lib

/-! ### Values of a file -/

/-- What `json.load` returns. An object is the list of its items, whose keys are distinct. -/
inductive JsonDoc where
  | scalar (value : Json)
  | list (items : List JsonDoc)
  | object (items : List (String × JsonDoc))

/-- Digits with single underscores between them. -/
def digitGroups? (digits : List Char) : Option (List Char) :=
  let groups := digits.splitOn '_'
  if groups.all fun group => !group.isEmpty && group.all Char.isDigit then some groups.flatten
  else none

/-- `float(s)` of a string: white space around it, a sign, digits with a point, an exponent.
`none` where it raises, and for infinities and NaN. -/
def floatOfString? (s : String) : Option ℚ := do
  let stripped := ((s.toList.dropWhile isSpace).reverse.dropWhile isSpace).reverse
  let (sign, number) := splitSign stripped
  let inMantissa := fun c => c ≠ 'e' && c ≠ 'E'
  let mantissa := number.takeWhile inMantissa
  let part := fun digits => if digits.isEmpty then some [] else digitGroups? digits
  let whole ← part (mantissa.takeWhile (· ≠ '.'))
  let fraction ← part ((mantissa.dropWhile (· ≠ '.')).drop 1)
  let exponent ← match number.dropWhile inMantissa with
    | [] => some 0
    | _ :: rest =>
        let (sign, digits) := splitSign rest
        (digitGroups? digits).map fun digits => sign * Nat.ofDigitChars 10 digits 0
  if whole.isEmpty && fraction.isEmpty then none
  else some (sign * Nat.ofDigitChars 10 (whole ++ fraction) 0 *
    (10 : ℚ) ^ (exponent - fraction.length))

/-- `float(value)`; `none` where it raises, and for what is no finite number. -/
def Json.float? : Json → Option ℚ
  | .bool b => some (if b then 1 else 0)
  | .int n => some n
  | .float x => some x
  | .string s => floatOfString? s
  | .null | .nonfinite | .container => none

namespace JsonDoc

def null : JsonDoc := .scalar .null
def bool (b : Bool) : JsonDoc := .scalar (.bool b)
def int (n : ℤ) : JsonDoc := .scalar (.int n)
def float (x : ℚ) : JsonDoc := .scalar (.float x)
def string (s : String) : JsonDoc := .scalar (.string s)

/-- The object with these items, without those that are omitted. -/
def dict (items : List (String × Option JsonDoc)) : JsonDoc :=
  .object (items.filterMap fun item => item.2.map fun value => (item.1, value))

def toJson : JsonDoc → Json
  | .scalar value => value
  | .list _ | .object _ => .container

/-- `bool(doc)`. -/
def truthy : JsonDoc → Bool
  | .scalar .null => false
  | .scalar (.bool b) => b
  | .scalar (.int n) => n ≠ 0
  | .scalar (.float x) => x ≠ 0
  | .scalar (.string s) => s ≠ ""
  | .scalar .nonfinite | .scalar .container => true
  | .list items => !items.isEmpty
  | .object items => !items.isEmpty

def int? (doc : JsonDoc) : Option ℤ := doc.toJson.int?

def float? (doc : JsonDoc) : Option ℚ := doc.toJson.float?

/-- A value that is kept as it is, where it is a string. -/
def string? : JsonDoc → Option String
  | .scalar (.string s) => some s
  | _ => none

/-- A value that is kept as it is, where it is an integer. -/
def integer? : JsonDoc → Option ℤ
  | .scalar (.int n) => some n
  | _ => none

/-- `doc.get(key)`; the outer `none` where there is no such method. -/
def get? (doc : JsonDoc) (key : String) : Option (Option JsonDoc) :=
  match doc with
  | .object items => some (items.lookup key)
  | _ => none

/-- `doc[key]`. -/
def item? (doc : JsonDoc) (key : String) : Option JsonDoc := (doc.get? key).join

/-- `key in doc`. -/
def has? (doc : JsonDoc) (key : String) : Option Bool :=
  match doc with
  | .object items => some (items.lookup key).isSome
  | .list items => some (items.any fun item => item.string? = some key)
  | .scalar (.string s) => some (decide (key.toList <:+: s.toList))
  | .scalar _ => none

/-- `for item in doc`. -/
def iter? : JsonDoc → Option (List JsonDoc)
  | .list items => some items
  | .object items => some (items.map fun item => .string item.1)
  | .scalar (.string s) => some (s.toList.map fun c => .string c.toString)
  | .scalar _ => none

/-- `convert(doc.get(key, default))`. -/
def withDefault {α : Type} (doc : JsonDoc) (key : String) (default : JsonDoc)
    (convert : JsonDoc → Option α) : Option α := do
  convert ((← doc.get? key).getD default)

/-- `convert(doc.get(key))`, where this is not `None`. -/
def optional {α : Type} (doc : JsonDoc) (key : String) (convert : JsonDoc → Option α) :
    Option (Option α) := do
  match ← doc.get? key with
  | none | some (.scalar .null) => some none
  | some value => (convert value).map some

end JsonDoc

/-! ### Configurations -/

/-- The radio section of a topology. -/
structure RadioParams extends Modem where
  noiseFloorDBm : ℚ
  deriving DecidableEq, Repr

/-- A `TopologyConfig` with such a radio section. -/
structure TopologyParams where
  nodes : List NodeConfig
  edges : List EdgeConfig
  simulation : SimulationConfig
  radio : Option RadioParams
  deriving DecidableEq, Repr

/-- `Topology(config)`, which does not look at the radio section. -/
def TopologyParams.topology? (topo : TopologyParams) : Option Topology :=
  Topology.init? ⟨topo.nodes, topo.edges, topo.simulation, none⟩

/-- The mode of an adversarial node as it is written. -/
def AdversarialMode.text : AdversarialMode → String
  | .drop => "drop"
  | .corrupt => "corrupt"
  | .replay => "replay"
  | .other mode => mode

def AdversarialMode.ofText (mode : String) : AdversarialMode :=
  if mode = "drop" then .drop
  else if mode = "corrupt" then .corrupt
  else if mode = "replay" then .replay
  else .other mode

/-- `other` stands for the other strings only. -/
def AdversarialMode.Proper (mode : AdversarialMode) : Prop := .ofText mode.text = mode

instance (mode : AdversarialMode) : Decidable mode.Proper := inferInstanceAs (Decidable (_ = _))

/-! ### Saving -/

/-- A value that is left out when it is the default. -/
def unlessDefault {α : Type} [DecidableEq α] (default : α) (write : α → JsonDoc) (value : α) :
    Option JsonDoc :=
  if value ≠ default then some (write value) else none

def AdversarialConfig.toDict (a : AdversarialConfig) : JsonDoc :=
  .dict
    [("mode", some (.string a.mode.text)),
      ("probability", unlessDefault 1 .float a.probability),
      ("replay_delay_ms", unlessDefault 5000 .float a.replayDelayMs),
      ("corrupt_byte_count", unlessDefault 1 .int a.corruptByteCount)]

def NodeConfig.toDict (n : NodeConfig) : JsonDoc :=
  .dict
    [("name", some (.string n.name)),
      ("relay", unlessDefault false .bool n.relay),
      ("room_server", unlessDefault false .bool n.roomServer),
      ("prv_key", n.prvKey.map .string),
      ("binary", n.binary.map .string),
      ("max_heap_kb", n.maxHeapKb.map .int),
      ("lat", n.lat.map .float),
      ("lon", n.lon.map .float),
      ("adversarial", n.adversarial.map AdversarialConfig.toDict)]

/-- `_dir_overrides`: no object where there is nothing to override. -/
def dirOverrides (o : Option DirectionalOverrides) : Option JsonDoc :=
  (o.map fun o => JsonDoc.dict
    [("loss", o.loss.map .float),
      ("latency_ms", o.latencyMs.map .float),
      ("snr", o.snr.map .float)]).filter JsonDoc.truthy

def EdgeConfig.toDict (e : EdgeConfig) : JsonDoc :=
  .dict
    [("a", some (.string e.a)),
      ("b", some (.string e.b)),
      ("loss", unlessDefault 0 .float e.loss),
      ("latency_ms", unlessDefault 0 .float e.latencyMs),
      ("snr", unlessDefault 6 .float e.snr),
      ("a_to_b", dirOverrides e.aToB),
      ("b_to_a", dirOverrides e.bToA)]

def SimulationConfig.toDict (s : SimulationConfig) : JsonDoc :=
  .dict
    [("warmup_secs", some (.float s.warmupSecs)),
      ("duration_secs", some (.float s.durationSecs)),
      ("traffic_interval_secs", some (.float s.trafficIntervalSecs)),
      ("advert_interval_secs", some (.float s.advertIntervalSecs)),
      ("epoch", some (.int s.epoch)),
      ("default_binary", some (.string s.defaultBinary)),
      ("default_max_heap_kb", s.defaultMaxHeapKb.map .int),
      ("seed", s.seed.map .int)]

/-- The radio section, which is written without the noise floor. -/
def RadioParams.toDict (r : RadioParams) : JsonDoc :=
  .dict
    [("sf", some (.int r.sf)),
      ("bw_hz", some (.int r.bwHz)),
      ("cr", some (.int r.cr)),
      ("preamble_symbols", some (.int r.preambleSymbols))]

/-- `topology_to_dict`. -/
def topologyToDict (topo : TopologyParams) : JsonDoc :=
  .dict
    [("nodes", some (.list (topo.nodes.map NodeConfig.toDict))),
      ("edges", some (.list (topo.edges.map EdgeConfig.toDict))),
      ("simulation", some topo.simulation.toDict),
      ("radio", topo.radio.map RadioParams.toDict)]

/-! ### Loading

`none` stands for an exception, and for a value of another type in a field that is not
converted. -/

def loadAdversarial (a : JsonDoc) : Option AdversarialConfig := do
  let mode ← (← a.item? "mode").string?
  let probability ← a.withDefault "probability" (.float 1) JsonDoc.float?
  let replayDelayMs ← a.withDefault "replay_delay_ms" (.float 5000) JsonDoc.float?
  let corruptByteCount ← a.withDefault "corrupt_byte_count" (.int 1) JsonDoc.int?
  return ⟨.ofText mode, probability, replayDelayMs, corruptByteCount⟩

def loadNode (n : JsonDoc) : Option NodeConfig := do
  let adversarial ← ((← n.get? "adversarial").filter JsonDoc.truthy).mapM loadAdversarial
  let name ← (← n.item? "name").string?
  let relay ← n.withDefault "relay" (.bool false) (some ·.truthy)
  let roomServer ← n.withDefault "room_server" (.bool false) (some ·.truthy)
  let prvKey ← n.optional "prv_key" JsonDoc.string?
  let binary ← n.optional "binary" JsonDoc.string?
  let maxHeapKb ← n.optional "max_heap_kb" JsonDoc.int?
  let lat ← n.optional "lat" JsonDoc.float?
  let lon ← n.optional "lon" JsonDoc.float?
  return ⟨name, relay, roomServer, prvKey, adversarial, binary, maxHeapKb, lat, lon⟩

/-- `float(raw[key]) if key in raw else None`. -/
def parseOverride (raw : JsonDoc) (key : String) : Option (Option ℚ) := do
  if ← raw.has? key then (← raw.item? key).float?.map some else some none

/-- `_parse_directional`. -/
def parseDirectional (raw : JsonDoc) : Option (Option DirectionalOverrides) :=
  if raw.truthy then do
    let loss ← parseOverride raw "loss"
    let latencyMs ← parseOverride raw "latency_ms"
    let snr ← parseOverride raw "snr"
    return some ⟨loss, latencyMs, snr⟩
  else some none

def loadEdge (e : JsonDoc) : Option EdgeConfig := do
  let a ← (← e.item? "a").string?
  let b ← (← e.item? "b").string?
  let loss ← e.withDefault "loss" (.float 0) JsonDoc.float?
  let latencyMs ← e.withDefault "latency_ms" (.float 0) JsonDoc.float?
  let snr ← e.withDefault "snr" (.float 6) JsonDoc.float?
  let aToB ← e.withDefault "a_to_b" (.object []) parseDirectional
  let bToA ← e.withDefault "b_to_a" (.object []) parseDirectional
  return ⟨a, b, loss, latencyMs, snr, aToB, bToA⟩

/-- `sim_raw.get("default_binary") or sim_raw.get("agent_binary", ...)`. -/
def loadBinary (sim : JsonDoc) : Option String := do
  let current := (← sim.get? "default_binary").filter JsonDoc.truthy
  let legacy := (← sim.get? "agent_binary").getD (.string "./node_agent/build/node_agent")
  (current.getD legacy).string?

/-- The simulation section, at a wall-clock time. -/
def loadSimulation (now : ℤ) (sim : JsonDoc) : Option SimulationConfig := do
  let warmupSecs ← sim.withDefault "warmup_secs" (.float 5) JsonDoc.float?
  let durationSecs ← sim.withDefault "duration_secs" (.float 60) JsonDoc.float?
  let trafficIntervalSecs ← sim.withDefault "traffic_interval_secs" (.float 10) JsonDoc.float?
  let advertIntervalSecs ← sim.withDefault "advert_interval_secs" (.float 30) JsonDoc.float?
  let epoch ← sim.withDefault "epoch" (.int 0) JsonDoc.int?
  let defaultBinary ← loadBinary sim
  let defaultMaxHeapKb ← sim.optional "default_max_heap_kb" JsonDoc.int?
  let seed ← sim.optional "seed" JsonDoc.integer?
  return ⟨warmupSecs, durationSecs, trafficIntervalSecs, advertIntervalSecs,
    if epoch = 0 then now else epoch, defaultBinary, defaultMaxHeapKb, seed⟩

def rawRadio : Option JsonDoc → RawRadio
  | none | some (.scalar .null) => .absent
  | some (.object items) =>
      .section (Dict.ofList (items.map fun item => (item.1, item.2.toJson)))
  | some _ => .other

/-- `load_topology`, on the loaded file. The noise floor of a radio section is the default of
`RadioConfig`. -/
def loadTopology (now : ℤ) (raw : JsonDoc) : Option TopologyParams := do
  let nodes ← (← raw.withDefault "nodes" (.list []) JsonDoc.iter?).mapM loadNode
  let edges ← (← raw.withDefault "edges" (.list []) JsonDoc.iter?).mapM loadEdge
  let simulation ← raw.withDefault "simulation" (.object []) (loadSimulation now)
  let radio ← loadRadio (rawRadio (← raw.get? "radio"))
  return ⟨nodes, edges, simulation,
    radio.map fun modem => ⟨modem, RadioConfig.default.noiseFloorDBm⟩⟩

/-! ### Reading what was written -/

namespace JsonDoc

variable {α : Type} {doc : JsonDoc} {key : String}

theorem lookup_filterMap {items : List (String × Option JsonDoc)}
    (distinct : (items.map Prod.fst).Nodup) :
    (items.filterMap fun item => item.2.map fun value => (item.1, value)).lookup key =
      (items.lookup key).join := by
  induction items with
  | nil => rfl
  | cons item items ih =>
      obtain ⟨key', value⟩ := item
      obtain ⟨new, rest⟩ := List.nodup_cons.mp distinct
      rw [lookup_cons_ite]
      cases value with
      | some value =>
          simp only [List.filterMap_cons, Option.map_some]
          rw [lookup_cons_ite, ih rest]
          split_ifs <;> rfl
      | none =>
          rw [List.filterMap_cons_none rfl, ih rest]
          split_ifs with same
          · subst same
            have missing : items.lookup key = none := by
              rw [List.lookup_eq_none_iff]
              intro item mem
              simp only [bne_iff_ne, ne_eq]
              rintro rfl
              exact new (List.mem_map.mpr ⟨item, mem, rfl⟩)
            rw [missing]
            rfl
          · rfl

theorem get?_dict {items : List (String × Option JsonDoc)}
    (distinct : (items.map Prod.fst).Nodup) :
    (dict items).get? key = some (items.lookup key).join :=
  congrArg some (lookup_filterMap distinct)

theorem int?_int (n : ℤ) : (int n).int? = some n := rfl

theorem float?_float (x : ℚ) : (float x).float? = some x := rfl

theorem string?_string (s : String) : (string s).string? = some s := rfl

theorem integer?_int (n : ℤ) : (int n).integer? = some n := rfl

theorem truthy_bool (b : Bool) : some (bool b).truthy = some b := rfl

/-- A field that is always written comes back. -/
theorem withDefault_some {value : α} {default : JsonDoc} {write : α → JsonDoc}
    {convert : JsonDoc → Option α} (reads : ∀ x, convert (write x) = some x)
    (written : doc.get? key = some (some (write value))) :
    doc.withDefault key default convert = some value := by
  rw [withDefault, written]
  exact reads value

theorem item?_of_get? {value : JsonDoc} (written : doc.get? key = some (some value)) :
    doc.item? key = some value := by
  rw [item?, written]
  rfl

theorem has?_dict {items : List (String × Option JsonDoc)}
    (distinct : (items.map Prod.fst).Nodup) :
    (dict items).has? key = some (items.lookup key).join.isSome :=
  congrArg (fun found : Option JsonDoc => some found.isSome) (lookup_filterMap distinct)

/-- A field that is left out when it is the default comes back. -/
theorem withDefault_unlessDefault [DecidableEq α] {default value : α} {write : α → JsonDoc}
    {convert : JsonDoc → Option α} (reads : ∀ x, convert (write x) = some x)
    (written : doc.get? key = some (unlessDefault default write value)) :
    doc.withDefault key (write default) convert = some value := by
  rw [withDefault, written, unlessDefault]
  split_ifs with changed
  · exact reads value
  · rw [not_not.mp changed]
    exact reads default

/-- A field that is left out when it is `None` comes back. -/
theorem optional_map {value : Option α} {write : α → JsonDoc} {convert : JsonDoc → Option α}
    (reads : ∀ x, convert (write x) = some x) (notNull : ∀ x, write x ≠ null)
    (written : doc.get? key = some (value.map write)) :
    doc.optional key convert = some value := by
  rw [optional, written]
  cases value with
  | none => rfl
  | some value =>
      simp only [Option.map_some, Option.bind_eq_bind, Option.bind_some]
      split
      · contradiction
      · rename_i isNull
        exact absurd (Option.some.inj isNull) (notNull value)
      · rename_i other
        rw [← Option.some.inj other, reads]
        rfl

end JsonDoc

/-! ### Records -/

section

open JsonDoc

theorem loadAdversarial_toDict (a : AdversarialConfig) :
    loadAdversarial a.toDict = some { a with mode := .ofText a.mode.text } := by
  have get (key : String) : a.toDict.get? key = some (List.lookup key _).join :=
    get?_dict (by simp)
  rw [loadAdversarial, item?_of_get? (get "mode"),
    withDefault_unlessDefault float?_float (get "probability"),
    withDefault_unlessDefault float?_float (get "replay_delay_ms"),
    withDefault_unlessDefault int?_int (get "corrupt_byte_count")]
  rfl

/-- A node as it is loaded back. -/
def NodeConfig.reread (n : NodeConfig) : NodeConfig :=
  { n with adversarial := n.adversarial.map fun a => { a with mode := .ofText a.mode.text } }

theorem loadNode_toDict (n : NodeConfig) : loadNode n.toDict = some n.reread := by
  have get (key : String) : n.toDict.get? key = some (List.lookup key _).join :=
    get?_dict (by simp)
  have adversarial : (n.adversarial.map AdversarialConfig.toDict).filter JsonDoc.truthy =
      n.adversarial.map AdversarialConfig.toDict := by
    cases n.adversarial <;> rfl
  have written : n.toDict.get? "adversarial" =
      some (n.adversarial.map AdversarialConfig.toDict) := get "adversarial"
  rw [loadNode, written, item?_of_get? (get "name"),
    withDefault_unlessDefault truthy_bool (get "relay"),
    withDefault_unlessDefault truthy_bool (get "room_server"),
    optional_map string?_string (fun _ => nofun) (get "prv_key"),
    optional_map string?_string (fun _ => nofun) (get "binary"),
    optional_map int?_int (fun _ => nofun) (get "max_heap_kb"),
    optional_map float?_float (fun _ => nofun) (get "lat"),
    optional_map float?_float (fun _ => nofun) (get "lon")]
  simp only [Option.bind_eq_bind, Option.bind_some, adversarial]
  cases settings : n.adversarial with
  | none => simp [NodeConfig.reread, settings, string?_string]
  | some a => simp [NodeConfig.reread, settings, string?_string, loadAdversarial_toDict]

theorem parseOverride_dict (items : List (String × Option JsonDoc)) {key : String}
    {value : Option ℚ} (distinct : (items.map Prod.fst).Nodup)
    (written : (items.lookup key).join = value.map .float) :
    parseOverride (dict items) key = some value := by
  have found : (dict items).has? key = some (items.lookup key).join.isSome := has?_dict distinct
  have read : (dict items).get? key = some (items.lookup key).join := get?_dict distinct
  rw [written] at found read
  cases value with
  | none => simp [parseOverride, found]
  | some x => simp [parseOverride, found, item?_of_get? read, float?_float]

/-- Overrides as they are loaded back: without an object that overrides nothing. -/
def rereadOverrides (o : Option DirectionalOverrides) : Option DirectionalOverrides :=
  o.filter fun o => o.loss.isSome || o.latencyMs.isSome || o.snr.isSome

theorem parseDirectional_dirOverrides (o : Option DirectionalOverrides) :
    parseDirectional ((dirOverrides o).getD (.object [])) = some (rereadOverrides o) := by
  cases o with
  | none => rfl
  | some o =>
      have overrides (key : String) (value : Option ℚ) :=
        @parseOverride_dict
          [("loss", o.loss.map .float), ("latency_ms", o.latencyMs.map .float),
            ("snr", o.snr.map .float)] key value (by simp)
      have loss := overrides "loss" o.loss rfl
      have latencyMs := overrides "latency_ms" o.latencyMs rfl
      have snr := overrides "snr" o.snr rfl
      simp only [dirOverrides, rereadOverrides, Option.map_some, Option.filter_some]
      generalize written : dict _ = doc at loss latencyMs snr ⊢
      have truthy : doc.truthy = (o.loss.isSome || o.latencyMs.isSome || o.snr.isSome) := by
        subst written
        cases o.loss <;> cases o.latencyMs <;> cases o.snr <;> rfl
      rw [truthy]
      split_ifs with some
      · rw [Option.getD_some, parseDirectional, truthy, if_pos some, loss, latencyMs, snr]
        rfl
      · rfl

/-- An edge as it is loaded back. -/
def EdgeConfig.reread (e : EdgeConfig) : EdgeConfig :=
  { e with aToB := rereadOverrides e.aToB, bToA := rereadOverrides e.bToA }

theorem loadEdge_toDict (e : EdgeConfig) : loadEdge e.toDict = some e.reread := by
  have get (key : String) : e.toDict.get? key = some (List.lookup key _).join :=
    get?_dict (by simp)
  have aToB : e.toDict.get? "a_to_b" = some (dirOverrides e.aToB) := get "a_to_b"
  have bToA : e.toDict.get? "b_to_a" = some (dirOverrides e.bToA) := get "b_to_a"
  rw [loadEdge, item?_of_get? (get "a"), item?_of_get? (get "b"),
    withDefault_unlessDefault float?_float (get "loss"),
    withDefault_unlessDefault float?_float (get "latency_ms"),
    withDefault_unlessDefault float?_float (get "snr")]
  simp only [Option.bind_eq_bind, Option.bind_some, string?_string, withDefault, aToB, bToA,
    parseDirectional_dirOverrides]
  rfl

/-- The simulation section as it is loaded back. -/
def SimulationConfig.reread (now : ℤ) (s : SimulationConfig) : SimulationConfig :=
  { s with
    epoch := if s.epoch = 0 then now else s.epoch
    defaultBinary :=
      if s.defaultBinary = "" then "./node_agent/build/node_agent" else s.defaultBinary }

theorem loadBinary_toDict (s : SimulationConfig) (now : ℤ) :
    loadBinary s.toDict = some (s.reread now).defaultBinary := by
  have get (key : String) : s.toDict.get? key = some (List.lookup key _).join :=
    get?_dict (by simp)
  have current : s.toDict.get? "default_binary" = some (some (.string s.defaultBinary)) :=
    get "default_binary"
  have legacy : s.toDict.get? "agent_binary" = some none := get "agent_binary"
  have truthy : (string s.defaultBinary).truthy = decide (s.defaultBinary ≠ "") := rfl
  rw [loadBinary, current, legacy]
  simp only [Option.bind_eq_bind, Option.bind_some, Option.filter_some, truthy,
    SimulationConfig.reread]
  by_cases empty : s.defaultBinary = ""
  · simp [empty, string?_string]
  · simp [empty, string?_string]

theorem loadSimulation_toDict (now : ℤ) (s : SimulationConfig) :
    loadSimulation now s.toDict = some (s.reread now) := by
  have get (key : String) : s.toDict.get? key = some (List.lookup key _).join :=
    get?_dict (by simp)
  rw [loadSimulation, withDefault_some float?_float (get "warmup_secs"),
    withDefault_some float?_float (get "duration_secs"),
    withDefault_some float?_float (get "traffic_interval_secs"),
    withDefault_some float?_float (get "advert_interval_secs"),
    withDefault_some int?_int (get "epoch"), loadBinary_toDict s now,
    optional_map int?_int (fun _ => nofun) (get "default_max_heap_kb"),
    optional_map integer?_int (fun _ => nofun) (get "seed")]
  rfl

theorem loadRadio_toDict (radio : Option RadioParams) :
    loadRadio (rawRadio (radio.map RadioParams.toDict)) =
      some (radio.map RadioParams.toModem) := by
  cases radio with
  | none => rfl
  | some r =>
      simp [RadioParams.toDict, dict, rawRadio, loadRadio, radioField, Dict.ofList,
        Dict.get?_set, toJson, int, Json.int?]

end

/-- A topology as it is loaded back. -/
def TopologyParams.reread (now : ℤ) (topo : TopologyParams) : TopologyParams where
  nodes := topo.nodes.map NodeConfig.reread
  edges := topo.edges.map EdgeConfig.reread
  simulation := topo.simulation.reread now
  radio := topo.radio.map fun r => ⟨r.toModem, RadioConfig.default.noiseFloorDBm⟩

/-- What is loaded from the file written for a topology. -/
theorem loadTopology_topologyToDict (now : ℤ) (topo : TopologyParams) :
    loadTopology now (topologyToDict topo) = some (topo.reread now) := by
  have get (key : String) : (topologyToDict topo).get? key = some (List.lookup key _).join :=
    JsonDoc.get?_dict (by simp)
  have nodes : (topologyToDict topo).withDefault "nodes" (.list []) JsonDoc.iter? =
      some (topo.nodes.map NodeConfig.toDict) := by
    rw [JsonDoc.withDefault, get "nodes"]
    rfl
  have edges : (topologyToDict topo).withDefault "edges" (.list []) JsonDoc.iter? =
      some (topo.edges.map EdgeConfig.toDict) := by
    rw [JsonDoc.withDefault, get "edges"]
    rfl
  have radio : (topologyToDict topo).get? "radio" = some (topo.radio.map RadioParams.toDict) :=
    get "radio"
  have simulation : (topologyToDict topo).withDefault "simulation" (.object [])
      (loadSimulation now) = some (topo.simulation.reread now) := by
    rw [JsonDoc.withDefault, get "simulation"]
    exact loadSimulation_toDict now topo.simulation
  simp only [loadTopology, nodes, edges, radio, simulation, Option.bind_eq_bind,
    Option.bind_some, mapM_map_of_reads loadNode_toDict, mapM_map_of_reads loadEdge_toDict,
    loadRadio_toDict]
  simp [TopologyParams.reread, Function.comp_def]

/-! ### The round trip -/

/-- The modes of adversarial nodes stand for what is written in the file. -/
def TopologyParams.Proper (topo : TopologyParams) : Prop :=
  ∀ n ∈ topo.nodes, ∀ a ∈ n.adversarial, a.mode.Proper

/-- Nodes, simulation and radio section come back from the file. -/
def RoundTrips (now : ℤ) (topo : TopologyParams) : Prop :=
  ∃ loaded, loadTopology now (topologyToDict topo) = some loaded ∧
    loaded.nodes = topo.nodes ∧ loaded.simulation = topo.simulation ∧ loaded.radio = topo.radio

theorem NodeConfig.reread_eq {n : NodeConfig} (proper : ∀ a ∈ n.adversarial, a.mode.Proper) :
    n.reread = n := by
  obtain ⟨name, relay, roomServer, prvKey, adversarial, binary, maxHeapKb, lat, lon⟩ := n
  cases adversarial with
  | none => rfl
  | some a =>
      have same : AdversarialMode.ofText a.mode.text = a.mode := proper a rfl
      simp only [NodeConfig.reread, Option.map_some, same]

theorem SimulationConfig.reread_eq {s : SimulationConfig} {now : ℤ} (epoch : s.epoch ≠ 0)
    (binary : s.defaultBinary ≠ "") : s.reread now = s := by
  simp only [SimulationConfig.reread, if_neg epoch, if_neg binary]

/-- Nodes and simulation always come back; the radio section does exactly when its noise floor is
the one that `load_topology` gives to every radio section. -/
theorem roundTrips_iff {topo : TopologyParams} (now : ℤ) (proper : topo.Proper)
    (epoch : topo.simulation.epoch ≠ 0) (binary : topo.simulation.defaultBinary ≠ "") :
    RoundTrips now topo ↔
      ∀ radio ∈ topo.radio, radio.noiseFloorDBm = RadioConfig.default.noiseFloorDBm := by
  have nodes : (topo.reread now).nodes = topo.nodes := by
    refine (List.map_congr_left fun n mem => ?_).trans (List.map_id _)
    exact NodeConfig.reread_eq (proper n mem)
  have simulation : (topo.reread now).simulation = topo.simulation :=
    SimulationConfig.reread_eq epoch binary
  have radio : (topo.reread now).radio = topo.radio ↔
      ∀ radio ∈ topo.radio, radio.noiseFloorDBm = RadioConfig.default.noiseFloorDBm := by
    rw [TopologyParams.reread]
    cases topo.radio with
    | none => simp
    | some r =>
        simp only [Option.map_some, Option.some.injEq, Option.mem_def, forall_eq']
        exact ⟨fun same => (congrArg RadioParams.noiseFloorDBm same).symm,
          fun same => by rw [← same]⟩
  rw [RoundTrips, loadTopology_topologyToDict]
  simp [nodes, simulation, radio]

/-- A topology with one relay and a radio section. -/
def relayTopology (noiseFloorDBm : ℚ) : TopologyParams where
  nodes := [{ NodeConfig.named "relay" with relay := true, lat := some 52, lon := some 21 }]
  edges := []
  simulation := ⟨5, 60, 10, 30, 1700000000, "./node_agent/build/node_agent", none, some 42⟩
  radio := some ⟨⟨10, 250000, 1, 8⟩, noiseFloorDBm⟩

theorem relayTopology_proper (noiseFloorDBm : ℚ) : (relayTopology noiseFloorDBm).Proper := by
  simp [TopologyParams.Proper, relayTopology, NodeConfig.named]

theorem roundTrips_iff_relay : RoundTrips 1700000000 (relayTopology (-120)) := by
  refine (roundTrips_iff 1700000000 (relayTopology_proper _) (by decide) (by decide)).mpr ?_
  rintro radio ⟨rfl⟩
  rfl

theorem not_roundTrips_noiseFloor :
    (relayTopology (-130)).Proper ∧ (relayTopology (-130)).simulation.epoch ≠ 0 ∧
      (relayTopology (-130)).simulation.defaultBinary ≠ "" ∧
      ¬ RoundTrips 1700000000 (relayTopology (-130)) := by
  refine ⟨relayTopology_proper _, by decide, by decide, ?_⟩
  rintro ⟨loaded, load, -, -, radio⟩
  rw [loadTopology_topologyToDict] at load
  cases load
  have floors := congrArg (Option.map RadioParams.noiseFloorDBm) radio
  exact absurd floors (by decide +kernel)

/-! ### The links -/

theorem EdgeConfig.link_reread (e : EdgeConfig) (other : NodeName)
    (o : Option DirectionalOverrides) :
    e.reread.link other (rereadOverrides o) = e.link other o := by
  cases o with
  | none => rfl
  | some o =>
      rw [rereadOverrides, Option.filter_some]
      split_ifs with some
      · rfl
      · obtain ⟨loss, latencyMs, snr⟩ := o
        simp only [Bool.or_eq_true, not_or, Bool.not_eq_true, Option.isSome_eq_false_iff,
          Option.isNone_iff_eq_none] at some
        obtain ⟨⟨rfl, rfl⟩, rfl⟩ := some
        rfl

theorem addEdge?_reread (adj : Dict NodeName (List EdgeLink)) (e : EdgeConfig) :
    Topology.addEdge? adj e.reread = Topology.addEdge? adj e := by
  have forward := e.link_reread e.b e.aToB
  have backward := e.link_reread e.a e.bToA
  exact congrArg₂ (fun link link' => (Topology.append? adj e.a link).bind fun adj' =>
    Topology.append? adj' e.b link') forward backward

/-- Edges between nodes of the topology can be added. -/
theorem isSome_foldlM_addEdge? {adj : Dict NodeName (List EdgeLink)} {edges : List EdgeConfig}
    (between : ∀ e ∈ edges, (adj.get? e.a).isSome = true ∧ (adj.get? e.b).isSome = true) :
    (edges.foldlM Topology.addEdge? adj).isSome = true := by
  induction edges generalizing adj with
  | nil => rfl
  | cons e edges ih =>
      have added (adj : Dict NodeName (List EdgeLink)) (name : NodeName) (link : EdgeLink)
          (known : (adj.get? name).isSome = true) :
          ∃ adj', Topology.append? adj name link = some adj' ∧
            ∀ other, (adj'.get? other).isSome = (adj.get? other).isSome := by
        obtain ⟨links, isLinks⟩ := Option.isSome_iff_exists.mp known
        have appended : Topology.append? adj name link = some (adj.set name (links ++ [link])) := by
          rw [Topology.append?, isLinks, Option.map_some]
        refine ⟨_, appended, fun other => ?_⟩
        rw [Topology.get?_append? appended, Option.isSome_map]
      obtain ⟨knownA, knownB⟩ := between e List.mem_cons_self
      obtain ⟨middle, first, kept⟩ := added adj e.a (e.link e.b e.aToB) knownA
      obtain ⟨last, second, kept'⟩ :=
        added middle e.b (e.link e.a e.bToA) ((kept e.b).trans knownB)
      rw [List.foldlM_cons, Topology.addEdge?, first, Option.bind_some, second]
      apply ih
      intro e' mem
      rw [kept', kept', kept, kept]
      exact between e' (List.mem_cons_of_mem _ mem)

/-- Edges between declared nodes make a graph. -/
theorem isSome_topology? {topo : TopologyParams}
    (between : ∀ e ∈ topo.edges,
      e.a ∈ topo.nodes.map (·.name) ∧ e.b ∈ topo.nodes.map (·.name)) :
    topo.topology?.isSome = true := by
  rw [TopologyParams.topology?, Topology.init?, Option.isSome_map]
  have known {name : NodeName} (declared : name ∈ topo.nodes.map (·.name)) :
      ((Dict.ofList (topo.nodes.map fun n => (n.name, ([] : List EdgeLink)))).get?
        name).isSome = true := by
    obtain ⟨n, mem, rfl⟩ := List.mem_map.mp declared
    exact Dict.isSome_get?_ofList (e := (n.name, [])) (List.mem_map.mpr ⟨n, mem, rfl⟩)
  exact isSome_foldlM_addEdge? fun e mem => ⟨known (between e mem).1, known (between e mem).2⟩

/-- The graph of a saved topology has the same links, in the same order. -/
theorem saved_adjacency (now : ℤ) (topo : TopologyParams) :
    ∃ loaded, loadTopology now (topologyToDict topo) = some loaded ∧
      loaded.topology?.map (·.adj) = topo.topology?.map (·.adj) ∧
      ((∀ e ∈ topo.edges, e.a ∈ topo.nodes.map (·.name) ∧ e.b ∈ topo.nodes.map (·.name)) →
        topo.topology?.isSome = true) := by
  refine ⟨_, loadTopology_topologyToDict now topo, ?_, ?_⟩
  · simp only [TopologyParams.topology?, Topology.init?, TopologyParams.reread, List.map_map,
      List.foldlM_map, addEdge?_reread, Option.map_map]
    rfl
  · exact isSome_topology?

end MeshcoreSim
