import TensorDataflow.Engine.ByteSize
import TensorDataflow.Graph.Error
/-!
# What can go wrong in an engine

The failures of an engine are those of its graphs, its device and its configuration, and a few of
its own. The kernels it can dispatch to are named here, since a kernel that is given the wrong
operator is named in the failure.
-/

namespace TensorDataflow

/-- The kernels that an engine can dispatch an operator to; the idle one does nothing. -/
inductive KernelKind where
  | elementwise | gemm | rmsNorm | idle
  deriving DecidableEq, Repr

def KernelKind.name : KernelKind → String
  | elementwise => "ElementWiseKernel"
  | gemm => "GemmKernel"
  | rmsNorm => "RmsNormKernel"
  | idle => "IdleKernel"

/-- Why an engine could not be made, configured or used. -/
inductive EngineError where
  | graph (cause : GraphError)
  | device (cause : DeviceError)
  | noContext
  | kernelNotFound (device : DeviceKind) (op : OpType)
  | duplicateKernel (device : DeviceKind) (op : OpType)
  | kernelMismatch (kernel : KernelKind) (op : OpType)
  | workspaceTooSmall (requested capacity : Nat)
  | config (cause : ConfigError)
  deriving DecidableEq, Repr

/-- The text of a failure; which thread has no context is not told. -/
def EngineError.message : EngineError → String
  | graph cause => cause.message
  | device cause => cause.message
  | noContext => "thread T has no runtime context; call init_thread_context first"
  | kernelNotFound place op => "no kernel registered for " ++ op.name ++ " on " ++ place.label
  | duplicateKernel place op =>
      "kernel for " ++ op.name ++ " on " ++ place.label ++ " is already registered"
  | kernelMismatch kernel op => "kernel " ++ kernel.name ++ " cannot run operator kind " ++ op.name
  | workspaceTooSmall requested capacity =>
      s!"workspace request of {requested} bytes exceeds capacity of {capacity} bytes"
  | config cause => cause.message

/-- The spelling of the cause in the interchange form, with a cause behind it after a point. -/
def EngineError.tag : EngineError → String
  | graph cause => "Graph." ++ cause.tag
  | device cause => "Device." ++ cause.tag
  | noContext => "NoContext"
  | kernelNotFound .. => "KernelNotFound"
  | duplicateKernel .. => "DuplicateKernel"
  | kernelMismatch .. => "KernelMismatch"
  | workspaceTooSmall .. => "WorkspaceTooSmall"
  | config _ => "ConfigError"

end TensorDataflow
