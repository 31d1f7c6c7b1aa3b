import TensorDataflow.Device.Kind
import TensorDataflow.Device.Status
import TensorDataflow.Element.Kind
/-!
# What can go wrong with a device

A native call fails, or a name names nothing. Names of device kinds and element kinds are read here,
in any case.
-/

namespace TensorDataflow

/-- What can go wrong between the program and a device: a native call that fails, or a name that is
none. -/
inductive DeviceError where
  | native (status : Status)
  | unknownDevice (name : String)
  | unknownKind (name : String)
  deriving DecidableEq, Repr

namespace DeviceError

def message : DeviceError → String
  | native status => status.message
  | unknownDevice name => "unknown device kind: " ++ name
  | unknownKind name => "unknown dtype: " ++ name

/-- The spelling of the cause in the interchange form. -/
def tag : DeviceError → String
  | native _ => "Native"
  | unknownDevice _ => "UnknownDevice"
  | unknownKind _ => "UnknownDType"

end DeviceError

def DeviceKind.parse (name : String) : Except DeviceError DeviceKind :=
  match ofLabel? name with
  | some kind => .ok kind
  | none => .error (.unknownDevice name)

def ElementKind.parse (name : String) : Except DeviceError ElementKind :=
  match ofLabel? name with
  | some kind => .ok kind
  | none => .error (.unknownKind name)

end TensorDataflow
