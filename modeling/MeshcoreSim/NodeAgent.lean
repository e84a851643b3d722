import Mathlib.Data.List.TakeWhile
import MeshcoreSim.Orchestrator
import MeshcoreSim.SimRadio

/-!
From the topology file to the modem of a node.

The radio parameters of a run reach the orchestrator through `load_topology` and
`RadioConfig()`, and each node through `NodeAgent._build_cmd`, the argument parser of the node
agent and the constructor of its `SimRadio`. Only what `int(...)` makes of the values in
the file matters, so a parameter is an integer here, whatever its sign.

* `parseArgs_buildCmd` — what the node agent reads is what `_build_cmd` has written, and its own
  defaults for what is not written.
* `one_modem` — node and orchestrator have the same modem exactly when the file has a radio
  section with 8 preamble symbols and parameters that fit an `int`.
* `modems_differ` — a file without a radio section.
-/

namespace MeshcoreSim

open Lib

/-! ### The radio section -/

/-- A value in the topology file. The string is one of ASCII characters. -/
inductive Json where
  | null
  | bool (b : Bool)
  | int (n : ℤ)
  | float (x : ℚ)
  /-- `NaN`, `Infinity` and `-Infinity`, which `json.load` accepts. -/
  | nonfinite
  | string (s : String)
  /-- A list or an object. -/
  | container
  deriving DecidableEq, Repr

def isSpace (c : Char) : Bool := c = ' ' || ('\t' ≤ c && c ≤ '\r')

/-- The sign of a numeral, and what follows it. -/
def splitSign : List Char → ℤ × List Char
  | '-' :: rest => (-1, rest)
  | '+' :: rest => (1, rest)
  | rest => (1, rest)

/-- `int(s)` of a string: white space around it, a sign, and digits with single underscores
between them. -/
def intOfString? (s : String) : Option ℤ :=
  let stripped := ((s.toList.dropWhile isSpace).reverse.dropWhile isSpace).reverse
  let (sign, digits) := splitSign stripped
  let groups := digits.splitOn '_'
  if groups.all fun group => !group.isEmpty && group.all Char.isDigit then
    some (sign * Nat.ofDigitChars 10 groups.flatten 0)
  else none

/-- `int(value)`; `none` where it raises. -/
def Json.int? : Json → Option ℤ
  | .bool b => some (if b then 1 else 0)
  | .int n => some n
  | .float x => some (if 0 ≤ x then ⌊x⌋ else ⌈x⌉)
  | .string s => intOfString? s
  | .null | .nonfinite | .container => none

/-- The value of the key `radio`. A missing key and `null` are the same. -/
inductive RawRadio where
  | absent
  | section (fields : Dict String Json)
  /-- Something without a `get` method. -/
  | other

/-- The parameters that fix the modulation. -/
structure Modem where
  sf : ℤ
  bwHz : ℤ
  cr : ℤ
  preambleSymbols : ℤ
  deriving DecidableEq, Repr

/-- `int(radio_raw.get(key, default))`. -/
def radioField (fields : Dict String Json) (key : String) (default : ℤ) : Option ℤ :=
  ((fields.get? key).getD (.int default)).int?

/-- The radio section as `load_topology` reads it; the outer `none` where it raises. -/
def loadRadio : RawRadio → Option (Option Modem)
  | .absent => some none
  | .section fields => do
      let sf ← radioField fields "sf" 9
      let bwHz ← radioField fields "bw_hz" 125000
      let cr ← radioField fields "cr" 1
      let preambleSymbols ← radioField fields "preamble_symbols" 8
      return some ⟨sf, bwHz, cr, preambleSymbols⟩
  | .other => none

/-! ### The orchestrator -/

/-- The modulation of a radio configuration. -/
def RadioConfig.modem (radio : RadioConfig) : Modem :=
  ⟨radio.sf, radio.bwHz, radio.cr, radio.preambleSymbols⟩

/-- `topo_cfg.radio or RadioConfig()`. -/
def orchestratorModem (radio : Option Modem) : Modem := radio.getD RadioConfig.default.modem

/-! ### The node agent -/

/-- `NodeAgent._build_cmd`. -/
def buildCmd (config : NodeConfig) (sim : SimulationConfig) (radio : Option Modem) :
    List String :=
  [(config.binary.filter (· ≠ "")).getD sim.defaultBinary] ++
    (if config.roomServer then ["--room-server"] else if config.relay then ["--relay"] else []) ++
    ["--name", config.name] ++
    ((config.prvKey.filter (· ≠ "")).elim [] fun key => ["--prv", key]) ++
    radio.elim [] fun radio =>
      ["--sf", toString radio.sf, "--bw", toString radio.bwHz, "--cr", toString radio.cr]

/-- C `atoi`; `none` where the value does not fit an `int` and the result is undefined. -/
def atoi (s : String) : Option ℤ :=
  let (sign, digits) := splitSign (s.toList.dropWhile isSpace)
  let value := sign * Nat.ofDigitChars 10 (digits.takeWhile Char.isDigit) 0
  if -2 ^ 31 ≤ value ∧ value < 2 ^ 31 then some value else none

/-- The local variables of `main` that its argument parser sets. A parameter is `none` when
its conversion is undefined. -/
structure Args where
  isRelay : Bool
  isRoomSvr : Bool
  prvHex : Option String
  nodeName : String
  radioSf : Option ℤ
  radioBw : Option ℤ
  radioCr : Option ℤ
  deriving DecidableEq, Repr

def Args.default : Args := ⟨false, false, none, "node", some 8, some 62500, some 4⟩

/-- An argument that is an option with a value; `none` if it is none. -/
def Args.option? (args : Args) (arg value : String) : Option Args :=
  if arg = "--prv" then some { args with prvHex := some value }
  else if arg = "--name" then some { args with nodeName := value }
  else if arg = "--sf" then some { args with radioSf := atoi value }
  else if arg = "--bw" then some { args with radioBw := atoi value }
  else if arg = "--cr" then some { args with radioCr := atoi value }
  else none

/-- An argument without a value; unknown ones are skipped. -/
def Args.flag (args : Args) (arg : String) : Args :=
  if arg = "--relay" then { args with isRelay := true }
  else if arg = "--room-server" then { args with isRoomSvr := true }
  else args

/-- The argument parser of `main`, from `argv[1]` on. -/
def parseArgs (args : Args) : List String → Args
  | [] => args
  | [arg] => args.flag arg
  | arg :: value :: rest =>
      match args.option? arg value with
      | some args' => parseArgs args' rest
      | none => parseArgs (args.flag arg) (value :: rest)

/-- The radio that `main` constructs. -/
def Args.radio? (args : Args) : Option SimRadio := do
  let sf ← args.radioSf
  let bw ← args.radioBw
  let cr ← args.radioCr
  return .init sf bw cr

/-- The modulation under which a radio computes its airtime: `getEstAirtimeFor` counts 8
preamble symbols. -/
def SimRadio.modem (radio : SimRadio) : Modem := ⟨radio.sf, radio.bwHz, radio.cr, 8⟩

/-- The radio of a node agent that is spawned with a command line. -/
def spawnedRadio? (cmd : List String) : Option SimRadio := (parseArgs .default cmd.tail).radio?

/-! ### What the node agent reads -/

/-- The value fits a C++ `int`. -/
def FitsInt (n : ℤ) : Prop := -2 ^ 31 ≤ n ∧ n < 2 ^ 31

instance (n : ℤ) : Decidable (FitsInt n) := inferInstanceAs (Decidable (_ ∧ _))

/-- A digit is neither white space nor a sign. -/
theorem not_space_of_isDigit {c : Char} (digit : c.isDigit) :
    isSpace c = false ∧ c ≠ '-' ∧ c ≠ '+' := by
  refine ⟨?_, ?_, ?_⟩
  · have range : '0' ≤ c := by
      simp only [Char.isDigit, Bool.and_eq_true, decide_eq_true_eq] at digit
      exact digit.1
    have notBlank : c ≠ ' ' := by
      rintro rfl
      exact absurd range (by decide)
    have notControl : ¬ c ≤ '\r' := fun below =>
      absurd (Char.le_trans range below) (by decide)
    simp [isSpace, notBlank, notControl]
  · rintro rfl
    exact absurd digit (by decide)
  · rintro rfl
    exact absurd digit (by decide)

/-- The digits of a number have no white space and no sign in front. -/
theorem splitSign_digits (m : ℕ) :
    splitSign ((Nat.toDigits 10 m).dropWhile isSpace) = (1, Nat.toDigits 10 m) := by
  have digits : ∀ c ∈ Nat.toDigits 10 m, c.isDigit := fun c mem =>
    Nat.isDigit_of_mem_toDigits (by decide) (by decide) mem
  cases written : Nat.toDigits 10 m with
  | nil => exact absurd written Nat.toDigits_ne_nil
  | cons c rest =>
      obtain ⟨notSpace, notMinus, notPlus⟩ := not_space_of_isDigit (digits c (by simp [written]))
      rw [List.dropWhile_cons_of_neg (by simp [notSpace])]
      unfold splitSign
      split
      · rename_i eq
        exact absurd (List.cons.inj eq).1 notMinus
      · rename_i eq
        exact absurd (List.cons.inj eq).1 notPlus
      · rfl

/-- Reading the digits of a number gives the number. -/
theorem ofDigitChars_takeWhile (m : ℕ) :
    Nat.ofDigitChars 10 ((Nat.toDigits 10 m).takeWhile Char.isDigit) 0 = m := by
  have whole : (Nat.toDigits 10 m).takeWhile Char.isDigit = Nat.toDigits 10 m :=
    List.takeWhile_eq_self_iff.mpr fun c mem =>
      Nat.isDigit_of_mem_toDigits (by decide) (by decide) mem
  rw [whole, Nat.ofDigitChars_toDigits (by decide) (by decide)]

/-- `atoi` reads back what Python's `str` writes, if it fits an `int`. -/
theorem atoi_toString (n : ℤ) : atoi (toString n) = if FitsInt n then some n else none := by
  unfold atoi
  rw [Int.toString_eq_repr, Int.repr_eq_if]
  by_cases positive : 0 ≤ n
  · have value : (n.toNat : ℤ) = n := Int.toNat_of_nonneg positive
    rw [if_pos positive, Nat.toList_repr, splitSign_digits]
    simp only [ofDigitChars_takeWhile, one_mul, value]
    rfl
  · have value : -1 * ((-n).toNat : ℤ) = n := by omega
    have minus : splitSign (("-" ++ (-n).toNat.repr).toList.dropWhile isSpace) =
        (-1, Nat.toDigits 10 (-n).toNat) := by
      rw [String.toList_append, Nat.toList_repr]
      rfl
    rw [if_neg positive, minus]
    simp only [ofDigitChars_takeWhile, value]
    rfl

/-- What the node agent reads from its command line: what `_build_cmd` writes, and its own
defaults for what is not written. -/
theorem parseArgs_buildCmd (config : NodeConfig) (sim : SimulationConfig) (radio : Option Modem) :
    parseArgs .default (buildCmd config sim radio).tail =
      { isRelay := !config.roomServer && config.relay
        isRoomSvr := config.roomServer
        prvHex := config.prvKey.filter (· ≠ "")
        nodeName := config.name
        radioSf := radio.elim (some 8) fun radio => atoi (toString radio.sf)
        radioBw := radio.elim (some 62500) fun radio => atoi (toString radio.bwHz)
        radioCr := radio.elim (some 4) fun radio => atoi (toString radio.cr) } := by
  unfold buildCmd
  cases config.roomServer <;> cases config.relay <;>
    cases config.prvKey.filter (· ≠ "") <;> cases radio <;>
    simp [parseArgs, Args.option?, Args.flag, Args.default]

/-- The radio of a node without a radio section: the defaults of the node agent. -/
theorem spawnedRadio?_absent (config : NodeConfig) (sim : SimulationConfig) :
    spawnedRadio? (buildCmd config sim none) = some (.init 8 62500 4) := by
  unfold spawnedRadio?
  rw [parseArgs_buildCmd]
  rfl

/-- The radio of a node with a radio section: its spreading factor, bandwidth and coding
rate, if they fit an `int`. -/
theorem spawnedRadio?_section (config : NodeConfig) (sim : SimulationConfig) (radio : Modem) :
    spawnedRadio? (buildCmd config sim (some radio)) =
      if FitsInt radio.sf ∧ FitsInt radio.bwHz ∧ FitsInt radio.cr then
        some (.init radio.sf radio.bwHz radio.cr)
      else none := by
  unfold spawnedRadio?
  rw [parseArgs_buildCmd]
  simp only [Args.radio?, Option.elim_some, atoi_toString]
  by_cases sf : FitsInt radio.sf
  · by_cases bwHz : FitsInt radio.bwHz
    · by_cases cr : FitsInt radio.cr
      · simp [sf, bwHz, cr]
      · simp [sf, bwHz, cr]
    · simp [sf, bwHz]
  · simp [sf]

/-! ### One modem -/

/-- The orchestrator of a run uses the modem of its router and channel model. -/
theorem modem_radioOrDefault (config : TopologyConfig) :
    config.radioOrDefault.modem = orchestratorModem (config.radio.map RadioConfig.modem) := by
  unfold TopologyConfig.radioOrDefault orchestratorModem
  cases config.radio <;> rfl

/-- A node has the modem of the orchestrator exactly when there is a radio section that can be
passed to it, with the preamble that it counts. -/
theorem sameModem_iff (config : NodeConfig) (sim : SimulationConfig) (radio : Option Modem) :
    (spawnedRadio? (buildCmd config sim radio)).map SimRadio.modem =
        some (orchestratorModem radio) ↔
      ∃ modem, radio = some modem ∧ modem.preambleSymbols = 8 ∧
        FitsInt modem.sf ∧ FitsInt modem.bwHz ∧ FitsInt modem.cr := by
  cases radio with
  | none =>
      rw [spawnedRadio?_absent]
      constructor
      · intro same
        exact absurd same (by decide)
      · rintro ⟨modem, present, -⟩
        cases present
  | some modem =>
      rw [spawnedRadio?_section]
      constructor
      · intro same
        split at same
        · rename_i fits
          have preamble : 8 = modem.preambleSymbols :=
            congrArg Modem.preambleSymbols (Option.some.inj same)
          exact ⟨modem, rfl, preamble.symm, fits⟩
        · cases same
      · rintro ⟨modem', present, preamble, fits⟩
        cases present
        rw [if_pos fits]
        simp only [Option.map_some, orchestratorModem, Option.getD_some, SimRadio.modem,
          SimRadio.init, ← preamble]

/-- A radio with the modem of a configuration computes the airtime of that configuration. -/
theorem getEstAirtimeFor_of_modem {node : SimRadio} {radio : RadioConfig}
    (same : node.modem = radio.modem) (lenBytes : ℕ) :
    node.getEstAirtimeFor lenBytes = ⌊loraAirtimeMs radio.sf radio.bwHz radio.cr lenBytes
      radio.preambleSymbols true true⌋₊ := by
  obtain ⟨sf, bwHz, cr, preamble⟩ : node.sf = radio.sf ∧ node.bwHz = radio.bwHz ∧
      node.cr = radio.cr ∧ 8 = radio.preambleSymbols := by
    simp only [SimRadio.modem, RadioConfig.modem, Modem.mk.injEq] at same
    exact_mod_cast same
  rw [node.getEstAirtimeFor_eq sf bwHz cr, preamble]

/-- One modem. For a topology file that is loaded, every node agent has the modem of the
orchestrator exactly when the file has a radio section, with 8 preamble symbols and with a
spreading factor, a bandwidth and a coding rate that fit an `int`. Then the airtime that
a node computes is, for every length, the orchestrator's, rounded down to milliseconds. -/
theorem one_modem (config : NodeConfig) (sim : SimulationConfig) (raw : RawRadio)
    (radio : Option Modem) (loaded : loadRadio raw = some radio) :
    ((spawnedRadio? (buildCmd config sim radio)).map SimRadio.modem =
        some (orchestratorModem radio) ↔
      ∃ modem, loadRadio raw = some (some modem) ∧ modem.preambleSymbols = 8 ∧
        FitsInt modem.sf ∧ FitsInt modem.bwHz ∧ FitsInt modem.cr) ∧
    ∀ r : RadioConfig,
      (spawnedRadio? (buildCmd config sim radio)).map SimRadio.modem = some r.modem →
      ∀ lenBytes, (spawnedRadio? (buildCmd config sim radio)).map
          (·.getEstAirtimeFor lenBytes) =
        some ⌊loraAirtimeMs r.sf r.bwHz r.cr lenBytes r.preambleSymbols true true⌋₊ := by
  rw [loaded]
  constructor
  · rw [sameModem_iff]
    simp only [Option.some.injEq]
  · intro r same lenBytes
    obtain ⟨node, spawned, modem⟩ := Option.map_eq_some_iff.mp same
    rw [spawned, Option.map_some, getEstAirtimeFor_of_modem modem]

/-- The settings of a short run. -/
def shortRun : SimulationConfig := ⟨5, 60, 10, 30, 1, "./node_agent/build/node_agent", none, none⟩

/-- The radio section of EU Narrow, which leaves the preamble at its default. -/
def euNarrow : RawRadio :=
  .section (.ofList [("sf", .int 8), ("bw_hz", .int 62500), ("cr", .int 4)])

/-- With that section a relay has the modem of the orchestrator. -/
theorem one_modem_euNarrow :
    loadRadio euNarrow = some (some ⟨8, 62500, 4, 8⟩) ∧
      (spawnedRadio? (buildCmd { NodeConfig.named "relay" with relay := true } shortRun
        (some ⟨8, 62500, 4, 8⟩))).map SimRadio.modem = some ⟨8, 62500, 4, 8⟩ := by
  have loaded : loadRadio euNarrow = some (some ⟨8, 62500, 4, 8⟩) := by decide +kernel
  exact ⟨loaded, (one_modem _ _ euNarrow _ loaded).1.mpr
    ⟨_, loaded, rfl, by decide, by decide, by decide⟩⟩

/-- A node has the modem of the orchestrator, whatever the file says. -/
def OneModem (config : NodeConfig) (sim : SimulationConfig) : Prop :=
  ∀ raw radio, loadRadio raw = some radio →
    (spawnedRadio? (buildCmd config sim radio)).map SimRadio.modem =
      some (orchestratorModem radio)

/-- Without a radio section the nodes have SF 8 at 62.5 kHz and the orchestrator SF 10 at
250 kHz. -/
theorem modems_differ : ¬ OneModem (.named "alice") shortRun := by
  intro claim
  have same := claim .absent none rfl
  rw [spawnedRadio?_absent] at same
  exact absurd same (by decide)

end MeshcoreSim
