/-!
# Device kinds and copy directions

The processor and the eight accelerator families, in the order in which tables list them, and the
four directions of a copy between host and device memory.
-/

namespace TensorDataflow

/-- The families of devices that memory and kernels can belong to. -/
inductive DeviceKind where
  | cpu | nvidia | cambricon | ascend | metax | moore | iluvatar | kunlun | hygon
  deriving DecidableEq, Repr, Inhabited

namespace DeviceKind

def all : List DeviceKind := [cpu, nvidia, cambricon, ascend, metax, moore, iluvatar, kunlun, hygon]

/-- The upper-case name, which also ends the names of registered kernels. -/
def label : DeviceKind → String
  | cpu => "CPU"
  | nvidia => "NVIDIA"
  | cambricon => "CAMBRICON"
  | ascend => "ASCEND"
  | metax => "METAX"
  | moore => "MOORE"
  | iluvatar => "ILUVATAR"
  | kunlun => "KUNLUN"
  | hygon => "HYGON"

/-- The spelling in configurations and in the interchange form. -/
def tag (kind : DeviceKind) : String := kind.label.toLower

def isCpu (kind : DeviceKind) : Bool := kind == cpu

/-- The kind with the given name, in any ASCII case. -/
def ofLabel? (text : String) : Option DeviceKind :=
  all.find? fun kind => kind.label.toLower == text.map Char.toLower

end DeviceKind

/-- Which side of a copy lies on the host and which on a device. -/
inductive CopyDirection where
  | hostToHost | hostToDevice | deviceToHost | deviceToDevice
  deriving DecidableEq, Repr

namespace CopyDirection

def all : List CopyDirection := [hostToHost, hostToDevice, deviceToHost, deviceToDevice]

def fromDevice : CopyDirection → Bool
  | deviceToHost | deviceToDevice => true
  | _ => false

def toDevice : CopyDirection → Bool
  | hostToDevice | deviceToDevice => true
  | _ => false

/-- The direction between two memories, given which of them are on the processor. -/
def between : (sourceOnCpu targetOnCpu : Bool) → CopyDirection
  | true, true => hostToHost
  | true, false => hostToDevice
  | false, true => deviceToHost
  | false, false => deviceToDevice

def tag : CopyDirection → String
  | hostToHost => "HostToHost"
  | hostToDevice => "HostToDevice"
  | deviceToHost => "DeviceToHost"
  | deviceToDevice => "DeviceToDevice"

end CopyDirection

end TensorDataflow
