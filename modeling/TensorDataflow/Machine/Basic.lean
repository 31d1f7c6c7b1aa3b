import TensorDataflow.Library.Native
import TensorDataflow.Machine.Fault
/-!
# Machines

A machine holds the backends that programs run on, each a device with its operator library, and the
number of the thread that is running. Actions on a machine keep what they have done when they fail,
so a caller sees exactly the native calls that went through before the failure.
-/

namespace TensorDataflow

/-- A computation that changes a state and may fail; the changes made before a failure stay. -/
abbrev Act (σ ε : Type) := ExceptT ε (StateM σ)

namespace Act

variable {σ τ ε ε' α : Type}

/-- The outcome of an action, with the state it leaves. -/
def outcome (act : Act σ ε α) (s : σ) : Except ε α × σ := act s

/-- Runs an action on a part of the state. -/
def on (get : σ → τ) (set : τ → σ → σ) (act : Act τ ε α) : Act σ ε α := fun s =>
  let (result, t) := act (get s)
  (result, set t s)

/-- Names the failures of an action by the caller's errors. -/
def mapError (f : ε → ε') (act : Act σ ε α) : Act σ ε' α := fun s =>
  let (result, s) := act s
  (result.mapError f, s)

/-- Runs an action for its effect only, whether it fails or not. -/
def attempt (act : Act σ ε α) : Act σ ε' Unit := fun s => (.ok (), (act s).2)

/-- A result that no state is needed for. -/
def ofExcept (e : Except ε α) : Act σ ε α := fun s => (e, s)

end Act

/-- A query or a launch that a library has answered, with the descriptor and the size in
question. -/
structure LogEntry where
  call : NativeCall
  desc : Nat
  size : Nat
  deriving DecidableEq, Repr

/-- A device with its operator library, the faults planned for it and the log of its library. -/
structure Backend where
  device : HostDevice
  library : OpLibrary := {}
  faults : List Fault := []
  log : List LogEntry := []
  deriving Inhabited

/-- A backend that has done nothing yet. -/
def Backend.fresh (emulated : List DeviceKind) (origin : Nat) (rooms : List Nat := []) : Backend :=
  { device := .fresh emulated origin rooms }

/-- The number of a backend in its machine. -/
abbrev BackendId := Nat

/-- All backends, and the thread that is running. -/
structure Machine where
  backends : List Backend
  thread : ThreadId := 0
  deriving Inhabited

namespace Machine

def backend (m : Machine) (id : BackendId) : Backend := m.backends.getD id default

def setBackend (m : Machine) (id : BackendId) (b : Backend) : Machine :=
  { m with backends := m.backends.set id b }

end Machine

/-- An operator library as its callers hold it: through the outside of a backend, where faults
strike and queries are logged, or directly. -/
structure LibraryRef where
  backend : BackendId
  guarded : Bool := true
  deriving DecidableEq, Repr, Inhabited

/-- An action of native calls. -/
abbrev NativeAct := Act Machine Status

namespace NativeAct

/-- Makes a native call: a fault may strike first, and then the body decides on the backend and the
thread at hand. -/
def invoke {α : Type} (lib : LibraryRef) (call : NativeCall)
    (body : ThreadId → Backend → Except Status (α × Backend)) : NativeAct α := fun m =>
  let b := m.backend lib.backend
  let (struck, faults) := if lib.guarded then Fault.strike call b.faults else (none, b.faults)
  let b := { b with faults }
  match struck with
  | some status => (.error status, m.setBackend lib.backend b)
  | none =>
      match body m.thread b with
      | .ok (a, b) => (.ok a, m.setBackend lib.backend b)
      | .error status => (.error status, m.setBackend lib.backend b)

/-- A call that only looks at the device. -/
def inspectDevice {α : Type} (id : BackendId) (call : NativeCall)
    (look : ThreadId → HostDevice → Except Status α) : NativeAct α :=
  invoke ⟨id, true⟩ call fun thread b => do return (← look thread b.device, b)

/-- A call that changes the device. -/
def changeDevice (id : BackendId) (call : NativeCall)
    (change : ThreadId → HostDevice → Except Status HostDevice) : NativeAct Unit :=
  invoke ⟨id, true⟩ call fun thread b => do
    return ((), { b with device := ← change thread b.device })

/-- A call that changes the device and answers something. -/
def useDevice {α : Type} (id : BackendId) (call : NativeCall)
    (use : ThreadId → HostDevice → Except Status (α × HostDevice)) : NativeAct α :=
  invoke ⟨id, true⟩ call fun thread b => do
    let (a, device) ← use thread b.device
    return (a, { b with device })

/-! ### The device -/

def init (id : BackendId) : NativeAct Unit := inspectDevice id .init fun _ _ => .ok ()

def synchronize (id : BackendId) : NativeAct Unit :=
  inspectDevice id .deviceSynchronize fun _ _ => .ok ()

def deviceCount (id : BackendId) (kind : DeviceKind) : NativeAct Nat :=
  inspectDevice id .deviceCount fun _ d => .ok (d.deviceCount kind)

/-- The counts of all kinds, asked for one after the other. -/
def allDeviceCounts (id : BackendId) : NativeAct (List (DeviceKind × Nat)) :=
  DeviceKind.all.mapM fun kind => do return (kind, ← deviceCount id kind)

def setDevice (id : BackendId) (kind : DeviceKind) (deviceId : Nat) : NativeAct Unit :=
  changeDevice id .setDevice fun thread d => d.select thread kind deviceId

def currentDevice (id : BackendId) : NativeAct (DeviceKind × Nat) :=
  inspectDevice id .currentDevice fun thread d => .ok (d.selection thread)

def streamCreate (id : BackendId) : NativeAct Nat :=
  useDevice id .streamCreate fun _ d => .ok d.createStream

def streamDestroy (id : BackendId) (stream : Nat) : NativeAct Unit :=
  changeDevice id .streamDestroy fun _ d => d.destroyStream stream

def malloc (id : BackendId) (size : Nat) : NativeAct Address :=
  useDevice id .malloc fun thread d => d.malloc thread size

def mallocHost (id : BackendId) (size : Nat) : NativeAct Address :=
  useDevice id .mallocHost fun _ d => d.mallocHost size

def mallocAsync (id : BackendId) (size stream : Nat) : NativeAct Address :=
  useDevice id .mallocAsync fun thread d => do
    d.checkStream stream
    d.malloc thread size

def free (id : BackendId) (a : Address) : NativeAct Unit :=
  changeDevice id .free fun _ d => d.free a

def freeHost (id : BackendId) (a : Address) : NativeAct Unit :=
  changeDevice id .freeHost fun _ d => d.freeHost a

def freeAsync (id : BackendId) (a : Address) (stream : Nat) : NativeAct Unit :=
  changeDevice id .freeAsync fun _ d => do
    d.checkStream stream
    d.free a

def memcpy (id : BackendId) (target source : Address) (size : Nat) (direction : CopyDirection) :
    NativeAct Unit :=
  changeDevice id .memcpy fun _ d => d.memcpy target source size direction

def memcpyAsync (id : BackendId) (target source : Address) (size : Nat) (direction : CopyDirection)
    (stream : Nat) : NativeAct Unit :=
  changeDevice id .memcpyAsync fun _ d => do
    d.checkStream stream
    d.memcpy target source size direction

def upload (id : BackendId) (target : Address) (bytes : List UInt8) : NativeAct Unit :=
  changeDevice id .upload fun _ d => d.upload target bytes

def download (id : BackendId) (source : Address) (length : Nat) : NativeAct Window :=
  useDevice id .download fun _ d => d.download source length

/-! ### The operator library -/

/-- A call that changes the library. -/
def changeLibrary (lib : LibraryRef) (call : NativeCall)
    (change : OpLibrary → Except Status OpLibrary) : NativeAct Unit :=
  invoke lib call fun _ b => do return ((), { b with library := ← change b.library })

/-- A call that makes a descriptor. -/
def makeDescriptor (lib : LibraryRef) (call : NativeCall)
    (make : Backend → Except Status (Nat × OpLibrary)) : NativeAct Nat :=
  invoke lib call fun _ b => do
    let (id, library) ← make b
    return (id, { b with library })

/-- The backend with an entry in its log, if the call came through the outside. -/
def logged (lib : LibraryRef) (entry : LogEntry) (b : Backend) : Backend :=
  if lib.guarded then { b with log := b.log ++ [entry] } else b

def createHandle (lib : LibraryRef) (kind : DeviceKind) (deviceId : Nat) : NativeAct Nat :=
  makeDescriptor lib .createHandle fun b => b.library.createHandle b.device kind deviceId

def destroyHandle (lib : LibraryRef) (handle : Nat) : NativeAct Unit :=
  changeLibrary lib .destroyHandle fun l => l.destroyHandle handle

def createTensor (lib : LibraryRef) (layout : OperandLayout) : NativeAct Nat :=
  makeDescriptor lib .createTensor fun b => b.library.createTensor layout

def destroyTensor (lib : LibraryRef) (desc : Nat) : NativeAct Unit :=
  changeLibrary lib .destroyTensor fun l => l.destroyTensor desc

def createOp (lib : LibraryRef) (handle : Nat) (op : NativeOp) (operands : List Nat) :
    NativeAct Nat :=
  makeDescriptor lib .createOp fun b => b.library.createOp handle op operands

def destroyOp (lib : LibraryRef) (desc : Nat) : NativeAct Unit :=
  changeLibrary lib .destroyOp fun l => l.destroyOp desc

def workspaceSize (lib : LibraryRef) (desc : Nat) : NativeAct Nat :=
  invoke lib .workspaceSize fun _ b => do
    let size ← b.library.workspaceSize desc
    return (size, logged lib ⟨.workspaceSize, desc, size⟩ b)

/-- Launches a descriptor; the launch is logged even if the library then refuses it. -/
def launch (lib : LibraryRef) (desc : Nat) (workspace : Address) (size : Nat)
    (outputs inputs : List Address) (args : LaunchArgs) : NativeAct Unit := do
  invoke lib .launch fun _ b => .ok ((), logged lib ⟨.launch, desc, size⟩ b)
  invoke { lib with guarded := false } .launch fun _ b => do
    return ((), { b with
      device := ← b.library.launch b.device desc workspace size outputs inputs args })

end NativeAct

end TensorDataflow
