import TensorDataflow.Proofs.Device.Spacing
/-!
# Blocks where the host has room

A device asks its host for the memory of a block, and where the host has room is the host's
business. `HostDevice.allocateAt` makes a block at whatever place the host answers when it is asked;
a device whose host has offered its places beforehand is one that answers with the next of them, or
with a place above all blocks (`HostDevice.allocate_eq_allocateAt`). If the host only answers with
places that are clear of the live blocks, then no two blocks ever share a byte, though they may
touch each other and the end of all addresses. So the nearest block that starts at or below an
address is the only one that can contain a range from there on:
`HostDevice.checkRange_eq_ok_iff_holders`.
-/

namespace TensorDataflow

namespace HostDevice

/-! ### Placing blocks -/

/-- Makes a zeroed block of at least one byte where the host has room; at zero there is none. -/
def allocateAt (d : HostDevice) (room size : Nat) (location : Location) :
    Except Status (Address × HostDevice) :=
  if maxRequest < size then .error .badParam
  else match Address.ofNat? room with
    | none => .error .internalError
    | some a => .ok (a, d.placed a.val (max size 1) location)

/-- Memory on the device that the thread has selected, where the host has room. -/
def mallocAt (d : HostDevice) (thread : ThreadId) (room size : Nat) :
    Except Status (Address × HostDevice) :=
  let (kind, id) := d.selection thread
  d.allocateAt room size (.device kind id)

def mallocHostAt (d : HostDevice) (room size : Nat) : Except Status (Address × HostDevice) :=
  d.allocateAt room size .host

variable {d d' : HostDevice}

theorem allocateAt_eq_ok {room size : Nat} {location : Location} {a : Address}
    (h : d.allocateAt room size location = .ok (a, d')) :
    size ≤ maxRequest ∧ room ≠ 0 ∧ d' = d.placed room (max size 1) location := by
  rw [allocateAt] at h
  split at h
  · cases h
  · next hrequest =>
      by_cases hroom : room = 0
      · rw [Address.ofNat?, if_pos hroom] at h
        cases h
      · rw [Address.ofNat?, if_neg hroom] at h
        cases h
        exact ⟨Nat.le_of_not_lt hrequest, hroom, rfl⟩

theorem le_maxRequest_of_allocate {size : Nat} {location : Location} {a : Address}
    (h : d.allocate size location = .ok (a, d')) : size ≤ maxRequest := by
  rw [allocate] at h
  split at h
  · cases h
  · next hrequest => exact Nat.le_of_not_lt hrequest

/-! ### Places that are offered beforehand -/

/-- What a host that has offered its places answers when it is asked for room. -/
def ownRoom (d : HostDevice) (size : Nat) : Nat :=
  if capacity ≤ size ∧ d.offer? size = none then 0 else d.room size

theorem room_ne_zero (hnext : d.nextAddress ≠ 0) (size : Nat) : d.room size ≠ 0 := by
  obtain hoffer | ⟨-, hroom⟩ := d.room_cases size
  · exact (offer?_eq_some hoffer).2.1
  · exact hroom ▸ hnext

/-- A device makes its blocks where its host answers that there is room, and the offer is used
up. -/
theorem allocate_eq_allocateAt (hnext : d.nextAddress ≠ 0) (size : Nat) (location : Location) :
    d.allocate size location = (d.allocateAt (d.ownRoom size) size location).map fun r =>
      (r.1, { r.2 with rooms := d.rooms.tail }) := by
  rw [allocate, allocateAt, ownRoom]
  by_cases hrequest : maxRequest < size
  · rw [if_pos hrequest, if_pos hrequest]
    rfl
  · rw [if_neg hrequest, if_neg hrequest]
    by_cases hfull : capacity ≤ size ∧ d.offer? size = none
    · rw [if_pos hfull, if_pos hfull]
      rfl
    · rw [if_neg hfull, if_neg hfull, Address.ofNat?, if_neg (room_ne_zero hnext size)]
      rfl

/-! ### Blocks that can be addressed -/

/-- Blocks that share no byte, none of which reaches to the end of all addresses. -/
structure Parted (d : HostDevice) : Prop extends d.Spaced where
  addressable : ∀ b ∈ d.blocks, b.finish < Address.limit

theorem parted_fresh (emulated : List DeviceKind) (origin : Nat) (rooms : List Nat) :
    (fresh emulated origin rooms).Parted :=
  ⟨spaced_fresh emulated origin rooms, fun _ hb => absurd hb List.not_mem_nil⟩

namespace Parted

variable (h : d.Parted)

include h

theorem placed {start size : Nat} (hsize : 0 < size) (hroom : d.Vacant start size)
    (location : Location) : (d.placed start size location).Parted where
  toSpaced := h.toSpaced.placed hsize hroom.clear location
  addressable b hb := by
    rcases mem_blocks_placed.1 hb with rfl | hb
    · exact hroom.within
    · exact h.addressable b hb

theorem sublist (hblocks : d'.blocks.Sublist d.blocks) (hnext : d'.nextAddress = d.nextAddress) :
    d'.Parted where
  toSpaced := h.toSpaced.sublist hblocks hnext
  addressable b hb := h.addressable b (hblocks.subset hb)

end Parted

/-! ### The blocks that contain a range -/

/-- The live blocks that contain the whole of a range. -/
def holders (d : HostDevice) (a : Address) (length : Nat) : List Block :=
  d.blocks.filter fun b => b.start ≤ a.val ∧ a.val + length ≤ b.finish

/-- Where blocks share no byte, a range of at least one byte is found if one block contains it and
no other does, and it lies where that block does. -/
theorem checkRange_eq_ok_iff_holders
    (h : d.blocks.Pairwise fun upper lower => lower.finish ≤ upper.start) {a : Address}
    {length : Nat} (hlength : 0 < length) {location : Location} :
    d.checkRange a length = .ok location ↔
    ∃ b, d.holders a length = [b] ∧ b.location = location := by
  rw [checkRange_eq_ok_iff]
  constructor
  · rintro ⟨b, hnearest, hfits, hlocation⟩
    refine ⟨b, ?_, hlocation⟩
    obtain ⟨hstart, newer, older, hsplit, habove⟩ := List.find?_eq_some_iff_append.1 hnearest
    have hstart : b.start ≤ a.val := of_decide_eq_true hstart
    rw [hsplit, List.pairwise_append, List.pairwise_cons] at h
    have hnewer : newer.filter (fun c => c.start ≤ a.val ∧ a.val + length ≤ c.finish) = [] :=
      List.filter_eq_nil_iff.2 fun c hc => by
        have habove : a.val < c.start := by simpa using habove c hc
        simp only [decide_eq_true_eq]
        omega
    have holder : older.filter (fun c => c.start ≤ a.val ∧ a.val + length ≤ c.finish) = [] :=
      List.filter_eq_nil_iff.2 fun c hc => by
        have hbelow := h.2.1.1 c hc
        simp only [decide_eq_true_eq]
        omega
    rw [holders, hsplit, List.filter_append, hnewer,
      List.filter_cons_of_pos (by simpa using ⟨hstart, hfits⟩), holder]
    rfl
  · rintro ⟨b, hholders, hlocation⟩
    have hb : b ∈ d.holders a length := hholders ▸ List.mem_singleton_self b
    obtain ⟨hmem, hb⟩ := List.mem_filter.1 hb
    obtain ⟨hstart, hfits⟩ := of_decide_eq_true hb
    obtain ⟨newer, older, hsplit⟩ := List.append_of_mem hmem
    rw [hsplit, List.pairwise_append] at h
    refine ⟨b, List.find?_eq_some_iff_append.2
      ⟨decide_eq_true hstart, newer, older, hsplit, fun c hc => ?_⟩, hfits, hlocation⟩
    -- a block above starts behind the end of the range
    have habove := h.2.2 c hc b List.mem_cons_self
    simp only [Bool.not_eq_true', decide_eq_false_iff_not]
    omega

/-- A range that is not found is a bad parameter. -/
theorem checkRange_eq_error_iff {a : Address} {length : Nat} {status : Status} :
    d.checkRange a length = .error status ↔
    status = .badParam ∧ ∀ location, d.checkRange a length ≠ .ok location := by
  rw [checkRange]
  split
  · split
    · simp
    · simp [eq_comm]
  · simp [eq_comm]

/-- No range reaches the end of all addresses. -/
theorem Parted.checkRange_of_limit_le (h : d.Parted) {a : Address} {length : Nat}
    (hover : Address.limit ≤ a.val + length) : d.checkRange a length = .error .badParam := by
  refine checkRange_eq_error_iff.2 ⟨rfl, fun location hfound => ?_⟩
  obtain ⟨b, hnearest, hfits, -⟩ := checkRange_eq_ok_iff.1 hfound
  have hend := h.addressable b (mem_of_nearest? hnearest)
  omega

/-- On a device whose host has offered its places beforehand, whatever has been done to it. -/
theorem Reached.checkRange_eq_ok_iff_holders (h : d.Reached) {a : Address} {length : Nat}
    (hlength : 0 < length) {location : Location} :
    d.checkRange a length = .ok location ↔
      ∃ b, d.holders a length = [b] ∧ b.location = location :=
  HostDevice.checkRange_eq_ok_iff_holders h.spaced.apart hlength

end HostDevice

end TensorDataflow
