import TensorDataflow.Engine.Error
import TensorDataflow.Text.Quoted
/-!
# Kernel registries

A registry is the list of its records in the order of registration, at most one for each device kind
and operator type, and the number of a record is its place in the list. There is no fallback from
one device kind to another.
-/

namespace TensorDataflow

/-- A kernel registered for a device kind and an operator type. -/
structure KernelRecord where
  device : DeviceKind
  op : OpType
  kernel : KernelKind
  name : String
  deriving DecidableEq, Repr

def KernelRecord.serves (r : KernelRecord) (device : DeviceKind) (op : OpType) : Bool :=
  r.device == device && r.op == op

/-- A record with its number, as it is shown to a developer. -/
def KernelRecord.debugText (r : KernelRecord) (id : Nat) : String :=
  "KernelRecord \x7b name: " ++ quoted r.name ++ s!", id: {id} \x7d"

/-- The registered kernels. -/
structure KernelRegistry where
  records : List KernelRecord := []
  deriving DecidableEq, Repr, Inhabited

namespace KernelRegistry

def empty : KernelRegistry := {}

def size (r : KernelRegistry) : Nat := r.records.length

def contains (r : KernelRegistry) (device : DeviceKind) (op : OpType) : Bool :=
  r.records.any fun k => k.serves device op

/-- The record for a device kind and an operator type, with its number. -/
def find? (r : KernelRegistry) (device : DeviceKind) (op : OpType) : Option (KernelRecord × Nat) :=
  r.records.zipIdx.find? fun k => k.1.serves device op

def get (r : KernelRegistry) (device : DeviceKind) (op : OpType) :
    Except EngineError (KernelRecord × Nat) :=
  match r.find? device op with
  | some found => .ok found
  | none => .error (.kernelNotFound device op)

/-- Adds a record and gives its number. -/
def register (r : KernelRegistry) (record : KernelRecord) :
    Except EngineError (Nat × KernelRegistry) :=
  if r.contains record.device record.op then .error (.duplicateKernel record.device record.op)
  else .ok (r.size, ⟨r.records ++ [record]⟩)

/-- The operator types that have a kernel on every device. -/
def builtinKernels : List (OpType × KernelKind) :=
  [(.add, .elementwise), (.sub, .elementwise), (.mul, .elementwise), (.gemm, .gemm),
    (.rmsNorm, .rmsNorm)]

/-- Every built-in kernel on every device kind, named for both. -/
def builtin : KernelRegistry :=
  ⟨DeviceKind.all.flatMap fun device => builtinKernels.map fun (op, kernel) =>
    ⟨device, op, kernel, kernel.name ++ "_" ++ device.label⟩⟩

end KernelRegistry

end TensorDataflow
