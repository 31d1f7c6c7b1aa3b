import TensorDataflow.Graph.Order
/-!
# Descriptors of operators

An operator keeps the descriptor that was last compiled for it and the handle behind it. A
descriptor for the same device and library is used again; any other is destroyed before its
replacement is built, and whatever a failing build has created it destroys again.
-/

namespace TensorDataflow

/-- Destroys a descriptor and its handle, passing over failures. -/
def Descriptor.destroy {ε : Type} (d : Descriptor) : Act Machine ε Unit := do
  (NativeAct.destroyOp d.library d.desc).attempt
  (NativeAct.destroyHandle d.library d.handle).attempt

/-- Destroys what operators hold that go away. -/
def Operator.dropAll {ε : Type} (ops : List Operator) : Act Machine ε Unit :=
  (ops.filterMap Operator.descriptor).forM Descriptor.destroy

namespace Graph

variable {ε : Type}

/-- A native call for a graph. -/
def native {α : Type} (act : NativeAct α) : GraphAct GraphError α :=
  onMachine (act.mapError fun s => .device (.native s))

def setDescriptor (id : OpId) (d : Option Descriptor) : GraphAct ε Unit :=
  modify fun (m, g) => (m, g.modifyOperator id fun op => { op with descriptor := d })

/-- Destroys the descriptor of an operator, if it has one. -/
def releaseDescriptor (id : OpId) : GraphAct ε Unit := do
  match ((← get).2.operator? id).bind Operator.descriptor with
  | none => return ()
  | some d =>
      setDescriptor id none
      onMachine d.destroy

/-- Creates tensor descriptors one after the other; on a failure those already made are given with
it. -/
def createTensors (lib : LibraryRef) :
    List OperandLayout → StateM Machine (Except Status Unit × List Nat)
  | [] => pure (.ok (), [])
  | layout :: rest => fun m =>
      match NativeAct.createTensor lib layout m with
      | (.error status, m) => ((.error status, []), m)
      | (.ok desc, m) =>
          let ((result, descs), m) := createTensors lib rest m
          ((result, desc :: descs), m)

/-- Compiles an operator from a handle. The tensor descriptors that it needs are destroyed again,
whatever the outcome. -/
def compileOperator (lib : LibraryRef) (handle : Nat) (op : NativeOp)
    (operands : List OperandLayout) : NativeAct Nat := fun m =>
  let ((created, descs), m) := createTensors lib operands m
  let (result, m) := (do
    Act.ofExcept created
    NativeAct.createOp lib handle op descs : NativeAct Nat) m
  let (_, m) := (descs.forM fun d => (NativeAct.destroyTensor lib d).attempt : NativeAct Unit) m
  (result, m)

/-- Builds a handle and a descriptor; the handle goes again if the descriptor cannot be built. -/
def buildDescriptor (lib : LibraryRef) (device : DeviceKind) (deviceId : Nat) (op : NativeOp)
    (operands : List OperandLayout) : NativeAct Descriptor := do
  let handle ← NativeAct.createHandle lib device deviceId
  let desc ←
    try compileOperator lib handle op operands
    catch status =>
      (NativeAct.destroyHandle lib handle).attempt
      throw status
  return ⟨lib, handle, desc, device, deviceId⟩

/-- Builds a descriptor from the present layouts of an operator's tensors, in place of the one at
hand. -/
def rebuildDescriptor (op : Operator) (lib : LibraryRef) (device : DeviceKind) (deviceId : Nat) :
    GraphAct GraphError Nat := do
  releaseDescriptor op.id
  let g := (← get).2
  let inputs ← Act.ofExcept (g.tensorsOf op.inputs)
  let outputs ← Act.ofExcept (g.tensorsOf op.outputs)
  let operands ← Act.ofExcept (op.kind.nativeOperands inputs outputs)
  let d ← native (buildDescriptor lib device deviceId op.kind.nativeOp operands)
  setDescriptor op.id (some d)
  return d.desc

/-- The descriptor of an operator for a device, built from the present layouts unless the one at
hand fits. -/
def createDescriptor (id : OpId) (lib : LibraryRef) (device : DeviceKind) (deviceId : Nat) :
    GraphAct GraphError Nat := do
  let op ← Act.ofExcept ((← get).2.operator id)
  match op.descriptor with
  | some d =>
      if d.device = device ∧ d.deviceId = deviceId ∧ d.library = lib then return d.desc
      else rebuildDescriptor op lib device deviceId
  | none => rebuildDescriptor op lib device deviceId

/-- Sorts the operators, and destroys what those hold that the order does not reach. -/
def sort : GraphAct GraphError Unit := do
  let (sorted, lost) ← Act.ofExcept (← get).2.topoSort
  modify fun (m, _) => (m, sorted)
  onMachine (Operator.dropAll lost)

/-- The native operands of an operator with its present layouts. -/
def nativeOperandsOf (g : Graph) (id : OpId) :
    Except GraphError (Operator × List OperandLayout) := do
  let op ← g.operator id
  return (op, ← op.kind.nativeOperands (← g.tensorsOf op.inputs) (← g.tensorsOf op.outputs))

end Graph

end TensorDataflow
