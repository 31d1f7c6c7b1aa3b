import TensorDataflow.Engine.Config
import TensorDataflow.Engine.Registry
import TensorDataflow.Graph.Data
/-!
# Engines

An engine runs graphs on one backend. It holds a workspace that all launches share, and for each
thread that uses it a context: the device that the thread is bound to and the stream that its work
is issued on. A thread keeps its context until it is bound to another device, and whatever an engine
that fails to come up has taken it gives back.
-/

namespace TensorDataflow

/-- What a thread is bound to. -/
structure Context where
  device : DeviceKind
  deviceId : Nat
  stream : Nat
  deriving DecidableEq, Repr, Inhabited

namespace Context

def isCpu (c : Context) : Bool := c.device.isCpu

def text (c : Context) : String := c.device.label ++ s!":{c.deviceId} (stream {c.stream})"

end Context

/-- An engine with its contexts and its workspace. -/
structure Engine where
  backend : BackendId
  kernels : KernelRegistry
  config : Config
  workspace : Buffer
  contexts : List (ThreadId × Context) := []
  deriving DecidableEq, Repr

/-- An action on an engine and the machine that it works on. -/
abbrev EngineAct := Act (Machine × Engine) EngineError

namespace Engine

/-- A native call for an engine. -/
def native {α : Type} (act : NativeAct α) : Act Machine EngineError α :=
  act.mapError fun s => .device (.native s)

def onMachine {α : Type} (act : Act Machine EngineError α) : EngineAct α :=
  Act.on Prod.fst (fun m s => (m, s.2)) act

def library (e : Engine) : LibraryRef := ⟨e.backend, true⟩

/-! ### Contexts -/

/-- The context of a thread. -/
def contextOf (e : Engine) (thread : ThreadId) : Except EngineError Context :=
  match e.contexts.lookup thread with
  | some c => .ok c
  | none => .error .noContext

/-- Gives a thread a context in place of the one it may have. -/
def bindThread (e : Engine) (thread : ThreadId) (c : Context) : Engine :=
  { e with contexts := (thread, c) :: e.contexts.filter fun b => b.1 ≠ thread }

/-- The context of the running thread. -/
def currentContext (e : Engine) : Act Machine EngineError Context :=
  do Act.ofExcept (e.contextOf (← get).thread)

/-- Gives the running thread a context. -/
def publish (c : Context) : EngineAct Context := do
  modify fun (m, e) => (m, e.bindThread m.thread c)
  return c

/-- Binds the running thread to a device, on a new stream. -/
def enter (device : DeviceKind) (deviceId : Nat) : EngineAct Context := do
  let (_, e) ← get
  onMachine (native (NativeAct.setDevice e.backend device deviceId))
  let stream ← onMachine (native (NativeAct.streamCreate e.backend))
  publish ⟨device, deviceId, stream⟩

/-- Binds the running thread to a device; a thread that has a context keeps it. -/
def openContext (device : DeviceKind) (deviceId : Nat) : EngineAct Context := do
  let (m, e) ← get
  match e.contexts.lookup m.thread with
  | some c => return c
  | none => enter device deviceId

/-- Binds the running thread to another device, with a new stream in place of the one of its old
context. -/
def replaceContext (old : Context) (device : DeviceKind) (deviceId : Nat) : EngineAct Context := do
  let (_, e) ← get
  onMachine (native (NativeAct.setDevice e.backend device deviceId))
  let stream ← onMachine (native (NativeAct.streamCreate e.backend))
  onMachine (native (NativeAct.streamDestroy e.backend old.stream))
  publish ⟨device, deviceId, stream⟩

/-- Binds the running thread, which must have a context, to a device; on the device that it is bound
to it keeps its context. -/
def switchContext (device : DeviceKind) (deviceId : Nat) : EngineAct Context := do
  let (m, e) ← get
  let old ← Act.ofExcept (e.contextOf m.thread)
  if old.device = device ∧ old.deviceId = deviceId then return old
  else replaceContext old device deviceId

/-! ### Coming and going -/

/-- Gives back the workspace and the streams, passing over failures. -/
def close {ε : Type} (e : Engine) : Act Machine ε Unit := do
  (NativeAct.free e.backend e.workspace.address).attempt
  e.contexts.forM fun (_, c) => (NativeAct.streamDestroy e.backend c.stream).attempt

/-- An engine on a backend, with a workspace on the configured device, to which the running thread
is bound. -/
def create (backend : BackendId) (kernels : KernelRegistry) (config : Config) :
    Act Machine EngineError Engine := do
  native (NativeAct.init backend)
  native (NativeAct.setDevice backend config.device config.deviceId)
  let size := config.workspace.bytes
  let address ← native (NativeAct.malloc backend size)
  let e : Engine := { backend, kernels, config, workspace := ⟨address, size⟩ }
  let (result, m, e) := openContext config.device config.deviceId (← get, e)
  set m
  match result with
  | .ok _ => return e
  | .error cause =>
      e.close
      throw cause

/-! ### Memory -/

/-- The workspace, if it is large enough. -/
def workspaceFor (e : Engine) (size : Nat) : Except EngineError Address :=
  if e.workspace.size < size then .error (.workspaceTooSmall size e.workspace.size)
  else .ok e.workspace.address

/-- The memory service of an engine, on the device that the thread is bound to. -/
def memory (e : Engine) : TensorMemory EngineError where
  backend := e.backend
  activeDevice := do return (← e.currentContext).device
  ofStatus s := .device (.native s)
  ofGraph := .graph

def mallocAsync (e : Engine) (size : Nat) : Act Machine EngineError Address := do
  native (NativeAct.mallocAsync e.backend size (← e.currentContext).stream)

def freeAsync (e : Engine) (a : Address) : Act Machine EngineError Unit := do
  native (NativeAct.freeAsync e.backend a (← e.currentContext).stream)

def memcpyAsync (e : Engine) (target source : Address) (size : Nat) (direction : CopyDirection) :
    Act Machine EngineError Unit := do
  native (NativeAct.memcpyAsync e.backend target source size direction (← e.currentContext).stream)

end Engine

end TensorDataflow
