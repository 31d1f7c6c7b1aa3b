import TensorDataflow.Device.Host
import TensorDataflow.Library.Kernel
/-!
# The operator library

The library hands out numbers for handles, tensor descriptors and operator descriptors from one
counter. An operator descriptor is compiled from the layouts of its operands, the output first, and
keeps its own copy of them; a launch resolves every address that its kernel may touch before the
kernel runs, so it either fails without a trace or stays inside ranges that were checked.
-/

namespace TensorDataflow

/-- What an operator descriptor computes. -/
inductive NativeOp where
  | add | sub | mul | gemm
  | rmsNorm (epsilon : Word 4)
  deriving DecidableEq, Repr

namespace NativeOp

/-- How many outputs and inputs the operands are. -/
def arity (_ : NativeOp) : Nat × Nat := (1, 2)

def name : NativeOp → String
  | add => "add"
  | sub => "sub"
  | mul => "mul"
  | gemm => "gemm"
  | rmsNorm _ => "rms_norm"

end NativeOp

/-- The scalars given at launch. -/
inductive LaunchArgs where
  | plain
  | scale (alpha beta : Word 4)
  deriving DecidableEq, Repr

/-- An operator with the layouts of its operands, the output first. -/
structure CompiledOp where
  op : NativeOp
  operands : List OperandLayout
  deriving DecidableEq, Repr

namespace CompiledOp

def isComputable (kind : ElementKind) : Bool := kind == .f32 || kind == .f64

/-- Whether a batch of `extent` matrices can be read as a batch of `batch`. -/
def batchFits (batch extent : Nat) : Bool := extent == batch || extent == 1

/-- Checks the operands of an operator and gives the layouts that its kernel uses; the operands of a
product become batches of matrices. -/
def compile (op : NativeOp) (operands : List OperandLayout) : Except Status CompiledOp :=
  match operands with
  | [y, a, b] =>
      if !isComputable y.kind || a.kind ≠ y.kind || b.kind ≠ y.kind then .error .badTensorDtype
      else
        match op with
        | .add | .sub | .mul =>
            if a.shape = y.shape ∧ b.shape = y.shape then .ok ⟨op, operands⟩
            else .error .badTensorShape
        | .gemm =>
            match y.toBatched?, a.toBatched?, b.toBatched? with
            | some y, some a, some b =>
                match y.shape, a.shape, b.shape with
                | [batch, m, n], [aBatch, aRows, k], [bBatch, bRows, bCols] =>
                    if batchFits batch aBatch && batchFits batch bBatch && aRows == m &&
                      bRows == k && bCols == n then .ok ⟨op, [y, a, b]⟩
                    else .error .badTensorShape
                | _, _, _ => .error .badTensorShape
            | _, _, _ => .error .badTensorShape
        | .rmsNorm _ =>
            match a.shape.getLast? with
            | some last =>
                if y.shape = a.shape ∧ b.shape = [last] then .ok ⟨op, operands⟩
                else .error .badTensorShape
            | none => .error .badTensorShape
  | _ => .error .badParam

/-- The scratch bytes that a launch needs: for a product, one row of its output. -/
def workspaceSize (c : CompiledOp) : Nat :=
  match c.op, c.operands with
  | .gemm, y :: _ => y.shape.getLastD 0 * y.kind.size
  | _, _ => 0

/-- Runs the kernel with the given arithmetic. -/
def runWith {width : Nat} (s : Arithmetic width) (c : CompiledOp) (addresses : List Address)
    (workspace : Address) (args : LaunchArgs) (m : Memory) : Memory :=
  match c.operands, addresses with
  | [yLayout, aLayout, bLayout], [yBase, aBase, bBase] =>
      let y : Operand := ⟨yBase, yLayout⟩
      let a : Operand := ⟨aBase, aLayout⟩
      let b : Operand := ⟨bBase, bLayout⟩
      match c.op with
      | .add => Kernel.elementwise s.add y a b m
      | .sub => Kernel.elementwise s.sub y a b m
      | .mul => Kernel.elementwise s.mul y a b m
      | .gemm =>
          match args with
          | .plain => Kernel.gemm s y a b s.one s.zero workspace.val m
          | .scale alpha beta =>
              Kernel.gemm s y a b (s.ofSingle alpha) (s.ofSingle beta) workspace.val m
      | .rmsNorm epsilon => Kernel.rmsNorm s y a b (s.ofSingle epsilon) m
  | _, _ => m

/-- Runs the kernel on singles or doubles, as the kind of the output says. -/
def run (c : CompiledOp) (addresses : List Address) (workspace : Address) (args : LaunchArgs)
    (m : Memory) : Memory :=
  match c.operands.head?.map OperandLayout.kind with
  | some .f32 => c.runWith singleArithmetic addresses workspace args m
  | some .f64 => c.runWith doubleArithmetic addresses workspace args m
  | _ => m

end CompiledOp

/-- The descriptors that are alive. -/
structure OpLibrary where
  lastId : Nat := 0
  handles : List (Nat × DeviceKind × Nat) := []
  tensors : List (Nat × OperandLayout) := []
  ops : List (Nat × CompiledOp) := []
  deriving Inhabited

namespace OpLibrary

/-- The table without a number, if the number is in it. -/
def without {α : Type} (id : Nat) (table : List (Nat × α)) : Except Status (List (Nat × α)) :=
  if (table.lookup id).isSome then .ok (table.filter fun e => e.1 ≠ id) else .error .badParam

def createHandle (l : OpLibrary) (d : HostDevice) (kind : DeviceKind) (id : Nat) :
    Except Status (Nat × OpLibrary) :=
  let count := d.deviceCount kind
  if count = 0 then .error .deviceTypeNotSupported
  else if count ≤ id then .error .deviceNotFound
  else .ok (l.lastId + 1,
      { l with lastId := l.lastId + 1, handles := (l.lastId + 1, kind, id) :: l.handles })

def destroyHandle (l : OpLibrary) (handle : Nat) : Except Status OpLibrary := do
  return { l with handles := ← without handle l.handles }

def createTensor (l : OpLibrary) (layout : OperandLayout) : Except Status (Nat × OpLibrary) :=
  if layout.shape.length ≠ layout.strides.length then .error .badTensorShape
  else if layout.strides.any (· < 0) then .error .badTensorStrides
  else .ok (l.lastId + 1,
      { l with lastId := l.lastId + 1, tensors := (l.lastId + 1, layout) :: l.tensors })

def destroyTensor (l : OpLibrary) (desc : Nat) : Except Status OpLibrary := do
  return { l with tensors := ← without desc l.tensors }

/-- Compiles an operator from tensor descriptors, the output's first. -/
def createOp (l : OpLibrary) (handle : Nat) (op : NativeOp) (operands : List Nat) :
    Except Status (Nat × OpLibrary) := do
  if (l.handles.lookup handle).isNone then throw .badParam
  let layouts ← operands.mapM fun desc =>
    match l.tensors.lookup desc with
    | some layout => pure layout
    | none => throw .badParam
  let compiled ← CompiledOp.compile op layouts
  return (l.lastId + 1, { l with lastId := l.lastId + 1, ops := (l.lastId + 1, compiled) :: l.ops })

def destroyOp (l : OpLibrary) (desc : Nat) : Except Status OpLibrary := do
  return { l with ops := ← without desc l.ops }

def compiled (l : OpLibrary) (desc : Nat) : Except Status CompiledOp :=
  match l.ops.lookup desc with
  | some c => .ok c
  | none => .error .badParam

def workspaceSize (l : OpLibrary) (desc : Nat) : Except Status Nat :=
  do return (← l.compiled desc).workspaceSize

/-- Checks that every operand's whole span lies in one block. -/
def checkOperands (d : HostDevice) : List (OperandLayout × Address) → Except Status Unit
  | [] => .ok ()
  | (layout, a) :: rest => do
      let _ ← d.checkRange a layout.spanBytes
      checkOperands d rest

/-- Runs a descriptor's kernel on the device's memory. -/
def launch (l : OpLibrary) (d : HostDevice) (desc : Nat) (workspace : Address) (workspaceSize : Nat)
    (outputs inputs : List Address) (args : LaunchArgs) :
    Except Status HostDevice := do
  let c ← l.compiled desc
  if (outputs.length, inputs.length) ≠ c.op.arity then throw .badParam
  if workspaceSize < c.workspaceSize then throw .insufficientWorkspace
  let _ ← d.checkRange workspace c.workspaceSize
  checkOperands d (c.operands.zip (outputs ++ inputs))
  return { d with memory := c.run (outputs ++ inputs) workspace args d.memory }

/-- How many handles, tensor descriptors and operator descriptors are alive. -/
def live (l : OpLibrary) : Nat × Nat × Nat := (l.handles.length, l.tensors.length, l.ops.length)

end OpLibrary

end TensorDataflow
