import TensorDataflow.Device.Kind
import TensorDataflow.Device.Status
import TensorDataflow.Device.Usage
import TensorDataflow.Device.Window
/-!
# A device on host memory

One processor and any number of emulated accelerator kinds, one device of each, share the host's
memory, and every block remembers where it is said to lie. Where there is room for a block is the
host's business: a place that it offers is taken if it is clear of all live blocks, and without such
an offer a block goes above all places so far, with a gap behind it. Blocks are never moved, and the
list of live blocks is in descending order; an address is resolved against the nearest block that
starts at or below it. An operation that fails leaves the device as it was.
-/

namespace TensorDataflow

/-- Where a block lies. -/
inductive Location where
  | host
  | device (kind : DeviceKind) (id : Nat)
  deriving DecidableEq, Repr

namespace Location

/-- The processor's device memory is host memory too. -/
def hostAccessible : Location → Bool
  | host => true
  | device kind _ => kind.isCpu

def deviceResident : Location → Bool
  | host => false
  | device .. => true

end Location

/-- A live allocation. -/
structure Block where
  start : Nat
  size : Nat
  location : Location
  deriving DecidableEq, Repr

def Block.finish (b : Block) : Nat := b.start + b.size

/-- The number of a thread; the selected device is kept for each. -/
abbrev ThreadId := Nat

/-- The state of a device; `rooms` are the places that the host is going to offer for the next
blocks. -/
structure HostDevice where
  emulated : List DeviceKind
  blocks : List Block := []
  nextAddress : Nat
  rooms : List Nat := []
  memory : Memory := .empty
  streams : List Nat := []
  lastStream : Nat := 0
  selected : List (ThreadId × DeviceKind × Nat) := []
  usage : Usage := {}

namespace HostDevice

/-- A device without blocks; unless the host offers room, the first one goes to the given
address. -/
def fresh (emulated : List DeviceKind) (origin : Nat) (rooms : List Nat := []) : HostDevice :=
  { emulated, nextAddress := origin, rooms }

instance : Inhabited HostDevice := ⟨fresh [] 64⟩

/-! ### Devices and streams -/

def supports (d : HostDevice) (kind : DeviceKind) : Bool := kind.isCpu || d.emulated.contains kind

def deviceCount (d : HostDevice) (kind : DeviceKind) : Nat := if d.supports kind then 1 else 0

/-- Selects the device of a thread. -/
def select (d : HostDevice) (thread : ThreadId) (kind : DeviceKind) (id : Nat) :
    Except Status HostDevice :=
  if !d.supports kind then .error .deviceTypeNotSupported
  else if 1 ≤ id then .error .deviceNotFound
  else .ok { d with selected := (thread, kind, id) :: d.selected.filter fun s => s.1 ≠ thread }

/-- The device of a thread, the processor until another is selected. -/
def selection (d : HostDevice) (thread : ThreadId) : DeviceKind × Nat :=
  (d.selected.lookup thread).getD (.cpu, 0)

def createStream (d : HostDevice) : Nat × HostDevice :=
  let id := d.lastStream + 1
  (id, { d with streams := id :: d.streams, lastStream := id })

def destroyStream (d : HostDevice) (stream : Nat) : Except Status HostDevice :=
  if d.streams.contains stream then .ok { d with streams := d.streams.filter (· ≠ stream) }
  else .error .badParam

def checkStream (d : HostDevice) (stream : Nat) : Except Status Unit :=
  if d.streams.contains stream then .ok () else .error .badParam

/-! ### Blocks -/

/-- The largest size that a block may be asked to have. -/
def maxRequest : Nat := 0x7fffffffffffffc0

/-- Unless the host offers room for it, no block of this size or more can be had: a block is zeroed,
so all of it takes memory, and the host has less than this. -/
def capacity : Nat := 0x800000000

/-- At least this many unused bytes follow a block that goes above all others. -/
def gap : Nat := 0x10000

/-- The nearest block that starts at or below an address. -/
def nearest? (d : HostDevice) (address : Nat) : Option Block :=
  d.blocks.find? fun b => b.start ≤ address

/-- The block that contains the `length` bytes from an address on; an address at the very end
belongs to its block. -/
def checkRange (d : HostDevice) (a : Address) (length : Nat) : Except Status Location :=
  match d.nearest? a.val with
  | some b => if a.val + length ≤ b.finish then .ok b.location else .error .badParam
  | none => .error .badParam

def location? (d : HostDevice) (a : Address) : Option Location := (d.checkRange a 0).toOption

/-- Some bytes that are clear of every live block; the address behind the last one is an address
too. -/
structure Vacant (d : HostDevice) (start size : Nat) : Prop where
  within : start + size < Address.limit
  clear : ∀ b ∈ d.blocks, start + size ≤ b.start ∨ b.finish ≤ start

instance (d : HostDevice) (start size : Nat) : Decidable (d.Vacant start size) :=
  decidable_of_iff
    (start + size < Address.limit ∧ ∀ b ∈ d.blocks, start + size ≤ b.start ∨ b.finish ≤ start)
    ⟨fun h => ⟨h.1, h.2⟩, fun h => ⟨h.within, h.clear⟩⟩

/-- The place that the host offers for a block of at least one byte, if the block can go there. -/
def offer? (d : HostDevice) (size : Nat) : Option Nat :=
  d.rooms.head?.filter fun room =>
    room ≠ 0 ∧ d.Vacant room (max size 1) ∧ ∀ b ∈ d.blocks, b.start ≠ room

/-- Where a block of at least one byte goes. -/
def room (d : HostDevice) (size : Nat) : Nat := (d.offer? size).getD d.nextAddress

/-- The device with a zeroed block at some place, which is put among the others by its address. -/
def placed (d : HostDevice) (start size : Nat) (location : Location) : HostDevice :=
  { d with
    blocks := d.blocks.takeWhile (start < ·.start) ++
      ⟨start, size, location⟩ :: d.blocks.dropWhile (start < ·.start)
    nextAddress := max d.nextAddress (start + (size / 64 + 1) * 64 + gap)
    memory := d.memory.clear start size
    usage := d.usage.recordAllocation size (location == .host) }

/-- The device with one more block of at least one byte, which has taken the host's next offer. -/
def extended (d : HostDevice) (size : Nat) (location : Location) : HostDevice :=
  { d.placed (d.room size) (max size 1) location with rooms := d.rooms.tail }

/-- Makes a zeroed block of at least one byte. -/
def allocate (d : HostDevice) (size : Nat) (location : Location) :
    Except Status (Address × HostDevice) :=
  if maxRequest < size then .error .badParam
  else if capacity ≤ size ∧ d.offer? size = none then .error .internalError
  else .ok (⟨d.room size⟩, d.extended size location)

/-- Releases the block that starts at an address, if its location is accepted. -/
def release (d : HostDevice) (a : Address) (accepts : Location → Bool) : Except Status HostDevice :=
  match d.blocks.find? fun b => b.start = a.val with
  | some b =>
      if accepts b.location then
        .ok { d with
          blocks := d.blocks.filter fun c => c.start ≠ a.val
          usage := d.usage.recordRelease b.size }
      else .error .badParam
  | none => .error .badParam

/-- Memory on the device that the thread has selected. -/
def malloc (d : HostDevice) (thread : ThreadId) (size : Nat) :
    Except Status (Address × HostDevice) :=
  let (kind, id) := d.selection thread
  d.allocate size (.device kind id)

def mallocHost (d : HostDevice) (size : Nat) : Except Status (Address × HostDevice) :=
  d.allocate size .host

def free (d : HostDevice) (a : Address) : Except Status HostDevice :=
  d.release a Location.deviceResident

def freeHost (d : HostDevice) (a : Address) : Except Status HostDevice :=
  d.release a Location.hostAccessible

/-! ### Copies -/

/-- Copies between two ranges, which may overlap; the direction must fit where the ranges lie. -/
def memcpy (d : HostDevice) (target source : Address) (size : Nat) (direction : CopyDirection) :
    Except Status HostDevice := do
  let from_ ← d.checkRange source size
  let to_ ← d.checkRange target size
  let sourceFits := if direction.fromDevice then from_.deviceResident else from_.hostAccessible
  let targetFits := if direction.toDevice then to_.deviceResident else to_.hostAccessible
  if sourceFits && targetFits then
    return { d with
      memory := d.memory.copy target.val source.val size
      usage := d.usage.recordCopy size }
  else throw .badParam

/-- Writes bytes of the caller into a block. -/
def upload (d : HostDevice) (target : Address) (bytes : List UInt8) : Except Status HostDevice := do
  let _ ← d.checkRange target bytes.length
  return { d with
    memory := d.memory.write target.val bytes
    usage := d.usage.recordCopy bytes.length }

/-- A window on the bytes of a block, for the caller. -/
def download (d : HostDevice) (source : Address) (length : Nat) :
    Except Status (Window × HostDevice) := do
  let _ ← d.checkRange source length
  return (⟨d.memory, source.val, length⟩, { d with usage := d.usage.recordCopy length })

end HostDevice

end TensorDataflow
