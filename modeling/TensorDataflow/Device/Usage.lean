import TensorDataflow.Decimal.Fixed
import TensorDataflow.Json.Value
/-!
# Usage of a device's memory

Counters of what a device has allocated, released and copied since it was made. They are moved only
by the three `record` functions, once for each operation that succeeds.
-/

namespace TensorDataflow

/-- What a device has done with memory so far. -/
structure Usage where
  allocations : Nat := 0
  hostAllocations : Nat := 0
  deviceAllocations : Nat := 0
  deallocations : Nat := 0
  liveBytes : Nat := 0
  peakBytes : Nat := 0
  cumulativeBytes : Nat := 0
  copies : Nat := 0
  copiedBytes : Nat := 0
  deriving DecidableEq, Repr, Inhabited

namespace Usage

def recordAllocation (u : Usage) (size : Nat) (onHost : Bool) : Usage :=
  let live := u.liveBytes + size
  { u with
    allocations := u.allocations + 1
    hostAllocations := if onHost then u.hostAllocations + 1 else u.hostAllocations
    deviceAllocations := if onHost then u.deviceAllocations else u.deviceAllocations + 1
    cumulativeBytes := u.cumulativeBytes + size
    liveBytes := live
    peakBytes := max u.peakBytes live }

def recordRelease (u : Usage) (size : Nat) : Usage :=
  { u with deallocations := u.deallocations + 1, liveBytes := u.liveBytes - size }

def recordCopy (u : Usage) (size : Nat) : Usage :=
  { u with copies := u.copies + 1, copiedBytes := u.copiedBytes + size }

/-- Allocations that have not been released. -/
def outstanding (u : Usage) : Nat := u.allocations - u.deallocations

/-- A size in units of 1048576 bytes, with two decimal places. -/
def megabytesText (bytes : Nat) : String := pointedText 2 (roundQuotient (bytes * 100) 1048576)

def summary (u : Usage) : String :=
  let peak := megabytesText u.peakBytes
  s!"Allocations: {u.allocations} total " ++
    s!"({u.hostAllocations} host, {u.deviceAllocations} device), " ++
    s!"{u.deallocations} deallocations, peak {peak} MB, {u.copies} copies ({u.copiedBytes} bytes)"

def toJson (u : Usage) : JsonValue :=
  .object [(some "total_allocations", .integer u.allocations),
      (some "host_allocations", .integer u.hostAllocations),
    (some "device_allocations", .integer u.deviceAllocations),
    (some "total_deallocations", .integer u.deallocations),
    (some "live_bytes", .integer u.liveBytes), (some "peak_allocated_bytes", .integer u.peakBytes),
    (some "cumulative_allocated_bytes", .integer u.cumulativeBytes),
    (some "copies", .integer u.copies), (some "bytes_copied", .integer u.copiedBytes)]

end Usage

end TensorDataflow
