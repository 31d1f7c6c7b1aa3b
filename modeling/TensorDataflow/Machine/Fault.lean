import TensorDataflow.Device.Status
/-!
# Native calls and planned faults

A native call can be made to fail on demand. Faults are consulted in the order in which they were
planned, and only the first one for the call that has strikes left counts: it lets calls pass while
it has any to skip, and otherwise spends a strike.
-/

namespace TensorDataflow

/-- The calls that the outside of a backend offers. -/
inductive NativeCall where
  | init | deviceCount | setDevice | currentDevice | streamCreate | streamDestroy
  | malloc | mallocHost | free | freeHost
  | memcpy | memcpyAsync | mallocAsync | freeAsync | upload | download | deviceSynchronize
  | createHandle | destroyHandle | createTensor | destroyTensor | createOp | destroyOp
  | workspaceSize | launch
  deriving DecidableEq, Repr

namespace NativeCall

def all : List NativeCall :=
  [init, deviceCount, setDevice, currentDevice, streamCreate, streamDestroy,
    malloc, mallocHost, free, freeHost,
    memcpy, memcpyAsync, mallocAsync, freeAsync, upload, download, deviceSynchronize,
    createHandle, destroyHandle, createTensor, destroyTensor, createOp, destroyOp,
    workspaceSize, launch]

def name : NativeCall → String
  | init => "init"
  | deviceCount => "device_count"
  | setDevice => "set_device"
  | currentDevice => "current_device"
  | streamCreate => "stream_create"
  | streamDestroy => "stream_destroy"
  | malloc => "malloc"
  | mallocHost => "malloc_host"
  | free => "free"
  | freeHost => "free_host"
  | memcpy => "memcpy"
  | memcpyAsync => "memcpy_async"
  | mallocAsync => "malloc_async"
  | freeAsync => "free_async"
  | upload => "upload"
  | download => "download"
  | deviceSynchronize => "device_synchronize"
  | createHandle => "create_handle"
  | destroyHandle => "destroy_handle"
  | createTensor => "create_tensor_descriptor"
  | destroyTensor => "destroy_tensor_descriptor"
  | createOp => "create_op_descriptor"
  | destroyOp => "destroy_op_descriptor"
  | workspaceSize => "workspace_size"
  | launch => "launch"

def ofName? (text : String) : Option NativeCall := all.find? fun call => call.name == text

end NativeCall

/-- A plan to let `skip` calls pass and to make the next `times` of them fail. -/
structure Fault where
  call : NativeCall
  status : Status
  skip : Nat
  times : Nat
  deriving DecidableEq, Repr

/-- Whether a call fails, and the faults after it. -/
def Fault.strike (call : NativeCall) : List Fault → Option Status × List Fault
  | [] => (none, [])
  | f :: rest =>
      if f.call = call ∧ 0 < f.times then
        if 0 < f.skip then (none, { f with skip := f.skip - 1 } :: rest)
        else (some f.status, { f with times := f.times - 1 } :: rest)
      else
        let (struck, rest) := strike call rest
        (struck, f :: rest)

end TensorDataflow
