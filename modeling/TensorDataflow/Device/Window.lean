import TensorDataflow.Device.Memory
/-!
# Windows of memory

A window is a range of bytes as they stood when it was taken. Any part of it can be read without
reading the rest.
-/

namespace TensorDataflow

/-- The bytes of a range, as a memory held them. -/
structure Window where
  memory : Memory
  start : Nat
  length : Nat

namespace Window

def bytes (w : Window) : List UInt8 := w.memory.read w.start w.length

/-- The given number of bytes from an offset on, if the window holds them all. -/
def slice? (w : Window) (offset count : Nat) : Option (List UInt8) :=
  if offset + count ≤ w.length then some (w.memory.read (w.start + offset) count) else none

end Window

end TensorDataflow
