import TensorDataflow.Device.Kind
import TensorDataflow.Engine.ByteSize
import TensorDataflow.Json.Value
import TensorDataflow.Toml.Writer
/-!
# Configurations

The four settings of a runtime with their defaults. They are read by name from a TOML or JSON
record, in which other names are passed over and a missing one takes its default, and written as
four TOML lines.
-/

namespace TensorDataflow

/-- The settings of a runtime. -/
structure Config where
  device : DeviceKind
  deviceId : Nat
  workspace : ByteSize
  profiling : Bool
  deriving DecidableEq, Repr

namespace Config

def standard : Config := ⟨.cpu, 0, .ofGib 7, true⟩

/-- The setting read from an entry, or its default where there is no entry. -/
def setting {α β : Type} (standard : α) (read : β → Option α) : Option β → Option α
  | none => some standard
  | some entry => read entry

def deviceOfTag? (tag : String) : Option DeviceKind :=
  DeviceKind.all.find? fun kind => kind.tag == tag

/-- The count that an integer is, if a machine word holds it. -/
def countOfInt? (n : Int) : Option Nat :=
  if 0 ≤ n ∧ n < 0x10000000000000000 then some n.toNat else none

/-- A size given as a text or as a number of bytes. -/
def readSize? (text : Option String) (count : Option Int) : Option ByteSize := do
  let source ← match text, count with
    | some s, _ => some s
    | none, some n => (countOfInt? n).map toString
    | none, none => none
  (ByteSize.parse source).toOption

/-! ### TOML -/

def sizeOfToml? : TomlValue → Option ByteSize
  | .text s => readSize? (some s) none
  | .integer n => readSize? none (some n)
  | _ => none

/-- The settings that a table gives. -/
def ofTable? (t : TomlTable) : Option Config := do
  let device ← setting standard.device (fun v : TomlValue => v.alternative.bind deviceOfTag?)
      (t.lookup "device")
  let deviceId ← setting standard.deviceId (fun | .integer n => countOfInt? n | _ => none)
      (t.lookup "device_id")
  let workspace ← setting standard.workspace sizeOfToml? (t.lookup "workspace_size")
  let profiling ← setting standard.profiling (fun | .boolean b => some b | _ => none)
      (t.lookup "enable_profiling")
  return ⟨device, deviceId, workspace, profiling⟩

def ofToml (source : String) (format : TomlFormat := .standard) : Except ConfigError Config :=
  match (format.read? source).bind ofTable? with
  | some config => .ok config
  | none => .error .malformed

/-- The settings by name. -/
def table (config : Config) : TomlTable :=
  [("device", .text config.device.tag), ("device_id", .integer config.deviceId),
    ("workspace_size", .text config.workspace.text),
    ("enable_profiling", .boolean config.profiling)]

/-- The settings as a document; a device number beyond the signed words cannot be written. -/
def toToml (config : Config) (format : TomlFormat := .standard) : Except ConfigError String :=
  match format.write? config.table with
  | some source => .ok source
  | none => .error .malformed

/-- Whether the configuration reads back from what is written for it. -/
def survivesToml (config : Config) : Bool :=
  match config.toToml with
  | .ok source => (ofToml source).toOption == some config
  | .error _ => false

/-- The settings in a file, given its content if it could be read. -/
def ofFile (path : String) : (content : Option String) → Except ConfigError Config
  | some source => ofToml source
  | none => .error (.unreadableFile path)

/-! ### JSON -/

def sizeOfJson? : JsonValue → Option ByteSize
  | .text (some s) => readSize? (some s) none
  | .integer n => readSize? none (some n)
  | _ => none

def ofJson? (value : JsonValue) : Option Config := do
  let [device, deviceId, workspace, profiling] ← value.record
      ["device", "device_id", "workspace_size", "enable_profiling"] | none
  let device ← setting standard.device (·.choose DeviceKind.all DeviceKind.tag) device
  let deviceId ← setting standard.deviceId
      (fun v : JsonValue => v.integer?.bind countOfInt?) deviceId
  let workspace ← setting standard.workspace sizeOfJson? workspace
  let profiling ← setting standard.profiling JsonValue.bool? profiling
  return ⟨device, deviceId, workspace, profiling⟩

def toJson (config : Config) : JsonValue :=
  .object [(some "device", .ofText config.device.tag), (some "device_id", .integer config.deviceId),
    (some "workspace_size", .ofText config.workspace.text),
    (some "enable_profiling", .bool config.profiling)]

end Config

end TensorDataflow
