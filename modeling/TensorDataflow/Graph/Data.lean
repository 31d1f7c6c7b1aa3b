import TensorDataflow.Graph.Basic
/-!
# Data of tensors

A tensor gets its buffer from a memory service, which knows the active device, and moves it between
the host and devices by copying into a fresh buffer before the old one is given up. A buffer that is
dropped without being released stays allocated.
-/

namespace TensorDataflow

/-- Where a tensor's buffers come from, and how failures are named there. -/
structure TensorMemory (ε : Type) where
  backend : BackendId
  activeDevice : Act Machine ε DeviceKind
  ofStatus : Status → ε
  ofGraph : GraphError → ε

/-- An action on a tensor and the machine that holds its data. -/
abbrev TensorAct (ε : Type) := Act (Machine × Tensor) ε

/-- The memory service of a backend, on the device that the thread has selected. -/
def directMemory (backend : BackendId) : TensorMemory GraphError where
  backend := backend
  activeDevice := (do return (← NativeAct.currentDevice backend).1 : NativeAct DeviceKind).mapError
    fun s => .device (.native s)
  ofStatus s := .device (.native s)
  ofGraph := id

namespace Tensor

variable {ε : Type}

/-- An action on the machine alone. -/
def onMachine {α : Type} (act : Act Machine ε α) : TensorAct ε α :=
  Act.on Prod.fst (fun m s => (m, s.2)) act

/-- A native call for a tensor. -/
def native {α : Type} (mem : TensorMemory ε) (act : NativeAct α) : TensorAct ε α :=
  onMachine (act.mapError mem.ofStatus)

/-- What the tensor itself says about its layout. -/
def ask {α : Type} (mem : TensorMemory ε) (question : Tensor → Except GraphError α) :
    TensorAct ε α := do
  Act.ofExcept ((question (← get).2).mapError mem.ofGraph)

def setData (data : Option Buffer) : TensorAct ε Unit := modify fun (m, t) => (m, { t with data })

def moveTo (device : DeviceKind) (buffer : Buffer) : TensorAct ε Unit :=
  modify fun (m, t) => (m, { t with device, data := some buffer })

/-- Releases a buffer of host or device memory. -/
def releaseBuffer (mem : TensorMemory ε) (onHost : Bool) (a : Address) : TensorAct ε Unit :=
  native mem (if onHost then NativeAct.freeHost mem.backend a else NativeAct.free mem.backend a)

/-- Copies the buffer into a fresh one on the target, takes that one and releases the old. When the
copy fails the fresh buffer is released and the old one stays. -/
def migrate (mem : TensorMemory ε) (old : Address) (target : DeviceKind) : TensorAct ε Unit := do
  let bytes ← ask mem totalBytes
  let toHost := target.isCpu
  let fresh ← native mem (if toHost then NativeAct.mallocHost mem.backend bytes
        else NativeAct.malloc mem.backend bytes)
  let direction := if toHost then CopyDirection.deviceToHost else .hostToDevice
  try native mem (NativeAct.memcpy mem.backend fresh old bytes direction)
  catch e =>
    (releaseBuffer mem toHost fresh).attempt
    throw e
  let source := (← get).2.device
  moveTo target ⟨fresh, bytes⟩
  releaseBuffer mem source.isCpu old

/-- The buffer, or the failure of a tensor without one. -/
def buffer (mem : TensorMemory ε) : TensorAct ε Buffer :=
  ask mem fun t => match t.data with | some b => .ok b | none => .error (.notAllocated t.id)

/-- Makes sure that there is a buffer: a fresh one on the active device, or the host's moved to an
active accelerator. -/
def realise (mem : TensorMemory ε) : TensorAct ε Unit := do
  let active ← onMachine mem.activeDevice
  let bytes ← ask mem totalBytes
  let t := (← get).2
  match t.data with
  | none =>
      let a ← native mem (NativeAct.malloc mem.backend bytes)
      moveTo active ⟨a, bytes⟩
  | some host => if t.device.isCpu && !active.isCpu then migrate mem host.address active

/-- Gives the buffer up and releases it; it is given up even if the release fails. -/
def releaseData (mem : TensorMemory ε) : TensorAct ε Unit := do
  let t := (← get).2
  match t.data with
  | none => return ()
  | some b =>
      setData none
      releaseBuffer mem t.device.isCpu b.address

/-- Moves data from a device to the host. -/
def copyToHost (mem : TensorMemory ε) : TensorAct ε Unit := do
  ask mem fun t => if t.device.isCpu then .error (.wrongLocation t.id t.device .device) else .ok ()
  migrate mem (← buffer mem).address .cpu

/-- Moves data from the host to the active accelerator. -/
def copyToDevice (mem : TensorMemory ε) : TensorAct ε Unit := do
  ask mem fun t => if t.device.isCpu then .ok () else .error (.wrongLocation t.id t.device .host)
  let active ← onMachine mem.activeDevice
  ask mem fun t => if active.isCpu then .error (.wrongLocation t.id active .accelerator) else .ok ()
  migrate mem (← buffer mem).address active

/-! ### Elements -/

/-- Fails unless the host's element kind is the tensor's. -/
def checkKind (mem : TensorMemory ε) (host : ElementKind) : TensorAct ε Unit :=
  ask mem fun t => if host = t.kind then .ok ()
    else .error (.dataMismatch t.id (.hostKind host t.kind))

/-- Cuts bytes into words, leaving a rest that is too short. -/
def wordsOf (width : Nat) : (count : Nat) → List UInt8 → List (Word width)
  | 0, _ => []
  | count + 1, bytes =>
      BitVec.ofNat _ (ofBytes (bytes.take width)) :: wordsOf width count (bytes.drop width)

/-- Writes all elements, in storage order. -/
def write (mem : TensorMemory ε) (host : ElementKind) (values : List (Word host.size)) :
    TensorAct ε Unit := do
  checkKind mem host
  let b ← buffer mem
  let expected ← ask mem storageSize
  ask mem fun t => if values.length = expected then .ok ()
    else .error (.dataMismatch t.id (.count expected values.length))
  native mem
    (NativeAct.upload mem.backend b.address (values.flatMap fun w => toBytes host.size w.toNat))

/-- Reads all elements, in storage order. -/
def read (mem : TensorMemory ε) (host : ElementKind) : TensorAct ε (List (Word host.size)) := do
  checkKind mem host
  let b ← buffer mem
  let window ← native mem (NativeAct.download mem.backend b.address (← ask mem totalBytes))
  return wordsOf host.size (window.length / host.size) window.bytes

/-- The element at an offset from the start of a buffer, or a question mark where the buffer has
none. -/
def renderElement (kind : ElementKind) (places : Nat) (window : Window) (offset : Int) : String :=
  if offset < 0 then "?"
  else
    match window.slice? (offset.toNat * kind.size) kind.size with
    | some bytes => kind.render bytes places
    | none => "?"

/-- The first elements in row-major order, as their layout places them. -/
def render (mem : TensorMemory ε) (most places : Nat) : TensorAct ε String := do
  let b ← buffer mem
  let shape ← ask mem concreteShape
  let stride ← ask mem concreteStride
  let window ← native mem (NativeAct.download mem.backend b.address (← ask mem totalBytes))
  let kind := (← get).2.kind
  let count := elementTotal shape
  let shown := min count most
  let elements :=
    (List.range shown).map fun i => renderElement kind places window (linearOffset i shape stride)
  return "[" ++ ", ".intercalate elements ++ (if shown < count then ", ...]" else "]")

end Tensor

namespace Graph

variable {ε : Type}

/-- Runs an action on the tensors one after the other, up to the first that fails. -/
def eachTensorOf (act : TensorAct ε Unit) (m : Machine) :
    List Tensor → Except ε Unit × Machine × List Tensor
  | [] => (.ok (), m, [])
  | t :: rest =>
      match act (m, t) with
      | (.ok (), m, t) =>
          let (result, m, rest) := eachTensorOf act m rest
          (result, m, t :: rest)
      | (.error e, m, t) => (.error e, m, t :: rest)

/-- Runs an action on all tensors of a graph, in their order. -/
def eachTensor (act : TensorAct ε Unit) : GraphAct ε Unit := fun (m, g) =>
  let (result, m, tensors) := eachTensorOf act m g.tensors
  (result, m, { g with tensors })

end Graph

end TensorDataflow
