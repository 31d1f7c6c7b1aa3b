/-!
# Native status codes

What a call to a device or to the operator library answers when it fails, with the code and the name
that make up its text.
-/

namespace TensorDataflow

/-- Why a native call failed. -/
inductive Status where
  | internalError | notImplemented | badParam | nullPointer
  | deviceTypeNotSupported | deviceNotFound
  | badTensorDtype | badTensorShape | badTensorStrides | insufficientWorkspace
  deriving DecidableEq, Repr

namespace Status

def all : List Status :=
  [internalError, notImplemented, badParam, nullPointer, deviceTypeNotSupported, deviceNotFound,
    badTensorDtype, badTensorShape, badTensorStrides, insufficientWorkspace]

def code : Status → Nat
  | internalError => 1
  | notImplemented => 2
  | badParam => 3
  | nullPointer => 4
  | deviceTypeNotSupported => 5
  | deviceNotFound => 6
  | badTensorDtype => 10
  | badTensorShape => 11
  | badTensorStrides => 12
  | insufficientWorkspace => 13

def name : Status → String
  | internalError => "internal error"
  | notImplemented => "not implemented"
  | badParam => "bad param"
  | nullPointer => "null pointer"
  | deviceTypeNotSupported => "device type not supported"
  | deviceNotFound => "device not found"
  | badTensorDtype => "bad tensor dtype"
  | badTensorShape => "bad tensor shape"
  | badTensorStrides => "bad tensor strides"
  | insufficientWorkspace => "insufficient workspace"

/-- The spelling in the interchange form. -/
def tag : Status → String
  | internalError => "InternalError"
  | notImplemented => "NotImplemented"
  | badParam => "BadParam"
  | nullPointer => "NullPointer"
  | deviceTypeNotSupported => "DeviceTypeNotSupported"
  | deviceNotFound => "DeviceNotFound"
  | badTensorDtype => "BadTensorDtype"
  | badTensorShape => "BadTensorShape"
  | badTensorStrides => "BadTensorStrides"
  | insufficientWorkspace => "InsufficientWorkspace"

def message (s : Status) : String := toString s.code ++ " (" ++ s.name ++ ")"

end Status

end TensorDataflow
