import Mathlib.Logic.Relation
import TensorDataflow.Proofs.Device.Blocks
import TensorDataflow.Proofs.Library.Footprint
import TensorDataflow.Proofs.Machine.Calls
/-!
# Ranges that stay as they are

Whatever is done to a device, and wherever its host has room, no two of its blocks share a byte, so
a fresh block overlaps none that is live. Placing it, copying into it and giving another block up
leave a range of a live block where it is, with its bytes: `HostDevice.Keeps`. Blocks may touch, so
there is one exception: a range without bytes at the very end of a block belongs to the next block
if one comes to start there.
-/

namespace TensorDataflow

namespace HostDevice

variable {d d' d'' : HostDevice} {a gone : Address} {length : Nat} {location : Location}

/-! ### Devices that can be reached -/

/-- An operation on a device that goes through. -/
inductive Step (d : HostDevice) : HostDevice → Prop
  | select {d' : HostDevice} {thread : ThreadId} {kind : DeviceKind} {id : Nat}
      (h : d.select thread kind id = .ok d') : Step d d'
  | createStream : Step d d.createStream.2
  | destroyStream {d' : HostDevice} {stream : Nat} (h : d.destroyStream stream = .ok d') : Step d d'
  | malloc {d' : HostDevice} {thread : ThreadId} {size : Nat} {a : Address}
      (h : d.malloc thread size = .ok (a, d')) : Step d d'
  | mallocHost {d' : HostDevice} {size : Nat} {a : Address}
      (h : d.mallocHost size = .ok (a, d')) : Step d d'
  | free {d' : HostDevice} {a : Address} (h : d.free a = .ok d') : Step d d'
  | freeHost {d' : HostDevice} {a : Address} (h : d.freeHost a = .ok d') : Step d d'
  | memcpy {d' : HostDevice} {target source : Address} {size : Nat} {direction : CopyDirection}
      (h : d.memcpy target source size direction = .ok d') : Step d d'
  | upload {d' : HostDevice} {target : Address} {bytes : List UInt8}
      (h : d.upload target bytes = .ok d') : Step d d'
  | download {d' : HostDevice} {source : Address} {length : Nat} {window : Window}
      (h : d.download source length = .ok (window, d')) : Step d d'
  | launch {d' : HostDevice} {l : OpLibrary} {desc : Nat} {workspace : Address} {size : Nat}
      {outputs inputs : List Address} {args : LaunchArgs}
      (h : l.launch d desc workspace size outputs inputs args = .ok d') : Step d d'

/-- A device that operations can lead to from one that has done nothing. -/
def Reached (d : HostDevice) : Prop :=
  ∃ emulated origin rooms, Relation.ReflTransGen Step (fresh emulated origin rooms) d

/-- No block is placed but the next one, and others may go. -/
theorem Step.blocks (h : Step d d') :
    (d'.blocks.Sublist d.blocks ∧ d'.nextAddress = d.nextAddress) ∨
    ∃ size location, d' = d.extended size location := by
  have hreleased : ∀ {a : Address} {accepts : Location → Bool}, d.release a accepts = .ok d' →
      d'.blocks.Sublist d.blocks ∧ d'.nextAddress = d.nextAddress := by
    intro a accepts hrelease
    obtain ⟨_, _, _, rfl⟩ := release_eq_ok_iff.1 hrelease
    exact ⟨List.filter_sublist, rfl⟩
  cases h with
  | select h =>
      obtain rfl := select_eq_ok h
      exact .inl ⟨List.Sublist.refl _, rfl⟩
  | createStream => exact .inl ⟨List.Sublist.refl _, rfl⟩
  | destroyStream h =>
      rw [HostDevice.destroyStream] at h
      split at h
      · cases h
        exact .inl ⟨List.Sublist.refl _, rfl⟩
      · cases h
  | malloc h => exact .inr ⟨_, _, (allocate_eq_ok h).2⟩
  | mallocHost h => exact .inr ⟨_, _, (allocate_eq_ok h).2⟩
  | free h => exact .inl (hreleased h)
  | freeHost h => exact .inl (hreleased h)
  | memcpy h =>
      obtain ⟨_, rfl⟩ := memcpy_eq_ok_iff.1 h
      exact .inl ⟨List.Sublist.refl _, rfl⟩
  | upload h =>
      obtain ⟨_, _, h⟩ := except_bind_eq_ok.1 h
      cases h
      exact .inl ⟨List.Sublist.refl _, rfl⟩
  | download h =>
      obtain ⟨_, _, h⟩ := except_bind_eq_ok.1 h
      cases h
      exact .inl ⟨List.Sublist.refl _, rfl⟩
  | @launch _ l desc _ _ _ _ _ h =>
      cases hlookup : l.ops.lookup desc with
      | none =>
          rw [OpLibrary.launch, OpLibrary.compiled, hlookup] at h
          cases h
      | some c =>
          obtain ⟨_, _, _, _, rfl⟩ := (OpLibrary.launch_eq_ok_iff hlookup).1 h
          exact .inl ⟨List.Sublist.refl _, rfl⟩

/-- Blocks with at least one byte each, in descending order, none of which reaches into the one
above or to the places that are left. -/
structure Spaced (d : HostDevice) : Prop where
  apart : d.blocks.Pairwise fun upper lower => lower.finish ≤ upper.start
  filled : ∀ b ∈ d.blocks, 0 < b.size
  below : ∀ b ∈ d.blocks, b.finish < d.nextAddress

theorem spaced_fresh (emulated : List DeviceKind) (origin : Nat) (rooms : List Nat) :
    (fresh emulated origin rooms).Spaced :=
  ⟨.nil, fun _ hb => absurd hb List.not_mem_nil, fun _ hb => absurd hb List.not_mem_nil⟩

namespace Spaced

variable (h : d.Spaced)

include h

theorem laid : d.Laid where
  descending := h.apart.imp_of_mem fun {upper lower} _ hlower hle => by
    have hfilled := h.filled lower hlower
    rw [Block.finish] at hle
    omega
  below b hb := Nat.lt_of_le_of_lt (Nat.le_add_right _ _) (h.below b hb)

theorem sublist (hblocks : d'.blocks.Sublist d.blocks) (hnext : d'.nextAddress = d.nextAddress) :
    d'.Spaced where
  apart := h.apart.sublist hblocks
  filled b hb := h.filled b (hblocks.subset hb)
  below b hb := hnext ▸ h.below b (hblocks.subset hb)

/-- A block that is put among others where there is room for it shares no byte with them. -/
theorem placed {start size : Nat} (hsize : 0 < size)
    (hclear : ∀ b ∈ d.blocks, start + size ≤ b.start ∨ b.finish ≤ start) (location : Location) :
    (d.placed start size location).Spaced where
  apart := by
    have habove : ∀ b ∈ d.blocks.takeWhile (start < ·.start), start + size ≤ b.start := by
      intro b hb
      have hstart : start < b.start := by simpa using List.mem_takeWhile_imp hb
      have hfinish : b.start ≤ b.finish := Nat.le_add_right _ _
      exact (hclear b ((List.takeWhile_prefix _).subset hb)).resolve_right (by omega)
    have hbelow : ∀ b ∈ d.blocks.dropWhile (start < ·.start), b.finish ≤ start := by
      intro b hb
      have hstart := h.laid.le_of_mem_dropWhile hb
      exact (hclear b ((List.dropWhile_suffix _).subset hb)).resolve_left (by omega)
    have hold := h.apart
    rw [← List.takeWhile_append_dropWhile (p := fun b : Block => start < b.start) (l := d.blocks),
      List.pairwise_append] at hold
    obtain ⟨hupper, hlower, hacross⟩ := hold
    refine List.pairwise_append.2 ⟨hupper, List.pairwise_cons.2 ⟨hbelow, hlower⟩, ?_⟩
    intro b hb c hc
    rcases List.mem_cons.1 hc with rfl | hc
    · exact habove b hb
    · exact hacross b hb c hc
  filled b hb := by
    rcases mem_blocks_placed.1 hb with rfl | hb
    · exact hsize
    · exact h.filled b hb
  below b hb := by
    rcases mem_blocks_placed.1 hb with rfl | hb
    · exact d.finish_lt_placed start size location
    · exact Nat.lt_of_lt_of_le (h.below b hb) (d.nextAddress_le_placed start size location)

/-- The next block goes where it is clear of all others. -/
theorem clear_room {b : Block} (hb : b ∈ d.blocks) (size : Nat) :
    d.room size + max size 1 ≤ b.start ∨ b.finish ≤ d.room size := by
  obtain hoffer | ⟨-, hroom⟩ := d.room_cases size
  · obtain ⟨-, -, hvacant, -⟩ := offer?_eq_some hoffer
    exact hvacant.clear b hb
  · exact .inr (hroom ▸ Nat.le_of_lt (h.below b hb))

theorem extended (size : Nat) (location : Location) : (d.extended size location).Spaced := by
  have hsize : 0 < max size 1 := Nat.lt_of_lt_of_le Nat.one_pos (Nat.le_max_right _ _)
  obtain ⟨hapart, hfilled, hbelow⟩ :=
    h.placed hsize (fun _ hb => h.clear_room hb size) location
  exact ⟨hapart, hfilled, hbelow⟩

theorem step (hstep : Step d d') : d'.Spaced := by
  obtain ⟨hblocks, hnext⟩ | ⟨size, location, rfl⟩ := hstep.blocks
  · exact h.sublist hblocks hnext
  · exact h.extended size location

end Spaced

theorem Reached.spaced (h : d.Reached) : d.Spaced := by
  obtain ⟨emulated, origin, rooms, hsteps⟩ := h
  induction hsteps with
  | refl => exact spaced_fresh emulated origin rooms
  | tail _ hstep ih => exact ih.step hstep

/-- A place that has been given up is used again beside a block that is still live. -/
example :
    (do
      let (a, d) ← (fresh [] 0x10000 [0x20000, 0x20010, 0x20000]).mallocHost 16
      let (_, d) ← d.mallocHost 8
      let d ← d.freeHost a
      let (b, d) ← d.mallocHost 16
      return (b, d.blocks.map Block.start)) = .ok (⟨0x20000⟩, [0x20010, 0x20000]) := by
  rfl

/-! ### The block of a range -/

/-- A block that a range does not belong to lies wholly below it or above it. -/
theorem Spaced.block_apart (h : d.Spaced) (hlive : d.checkRange a length = .ok location) {c : Block}
    (hc : c ∈ d.blocks) (hother : d.nearest? a.val ≠ some c) :
    c.finish ≤ a.val ∨ a.val + length ≤ c.start := by
  obtain ⟨b, hnearest, hfits, -⟩ := checkRange_eq_ok_iff.1 hlive
  obtain ⟨hstart, upper, lower, hsplit, -⟩ := List.find?_eq_some_iff_append.1 hnearest
  have hstart : b.start ≤ a.val := of_decide_eq_true hstart
  have hapart := h.apart
  rw [hsplit, List.pairwise_append, List.pairwise_cons] at hapart
  rw [hsplit, List.mem_append, List.mem_cons] at hc
  rcases hc with hupper | rfl | hlower
  · exact .inr (Nat.le_trans hfits (hapart.2.2 c hupper b List.mem_cons_self))
  · exact absurd hnearest hother
  · exact .inl (Nat.le_trans (hapart.2.1.1 c hlower) hstart)

theorem Spaced.lt_of_checkRange (h : d.Spaced) (hlive : d.checkRange a length = .ok location) :
    a.val + length < d.nextAddress := by
  obtain ⟨b, hnearest, hfits, -⟩ := checkRange_eq_ok_iff.1 hlive
  exact Nat.lt_of_le_of_lt hfits (h.below b (mem_of_nearest? hnearest))

/-- The next block shares no byte with a live range. -/
theorem Spaced.disjoint_room (h : d.Spaced) (hlive : d.checkRange a length = .ok location)
    (size : Nat) : a.val + length ≤ d.room size ∨ d.room size + max size 1 ≤ a.val := by
  obtain ⟨b, hnearest, hfits, -⟩ := checkRange_eq_ok_iff.1 hlive
  have hstart := start_le_of_nearest? hnearest
  obtain habove | hbelow := h.clear_room (mem_of_nearest? hnearest) size
  · exact .inr (Nat.le_trans habove hstart)
  · exact .inl (Nat.le_trans hfits hbelow)

/-- A live range starts where the next block goes only at an offered place, and then it has no
bytes. -/
theorem Spaced.ne_room (h : d.Spaced) (hlive : d.checkRange a length = .ok location)
    (hoffered : a.val ∈ d.rooms → 0 < length) (size : Nat) : 0 < length ∨ a.val ≠ d.room size := by
  refine or_iff_not_imp_right.2 fun hsame => ?_
  have hroom : a.val = d.room size := not_not.1 hsame
  obtain hoffer | ⟨-, hnext⟩ := d.room_cases size
  · exact hoffered (hroom ▸ (offer?_eq_some hoffer).1)
  · have hbelow := h.lt_of_checkRange hlive
    omega

/-- Nothing is live where the next block goes, unless the host has offered the place. -/
theorem Spaced.location?_room (h : d.Spaced) {size : Nat} (hroom : d.room size ∉ d.rooms) :
    d.location? ⟨d.room size⟩ = none := by
  obtain hoffer | ⟨-, hnext⟩ := d.room_cases size
  · exact absurd (offer?_eq_some hoffer).1 hroom
  · rw [location?, hnext]
    cases hrange : d.checkRange ⟨d.nextAddress⟩ 0 with
    | error status => rfl
    | ok location => exact absurd (h.lt_of_checkRange hrange) (Nat.lt_irrefl _)

theorem Laid.blockAt?_of_mem (h : d.Laid) {b : Block} (hb : b ∈ d.blocks) :
    d.blockAt? ⟨b.start⟩ = some b := by
  rw [blockAt?, List.find?_eq_some_iff_append]
  obtain ⟨newer, older, hsplit⟩ := List.append_of_mem hb
  have hdescending := h.descending
  rw [hsplit, List.pairwise_append] at hdescending
  exact ⟨decide_eq_true rfl, newer, older, hsplit,
    fun c hc => by simpa using Nat.ne_of_gt (hdescending.2.2 c hc b List.mem_cons_self)⟩

/-! ### What stays -/

/-- A range of a block stays where it is, with its bytes. -/
structure Keeps (a : Address) (length : Nat) (d d' : HostDevice) : Prop where
  range : d'.checkRange a length = d.checkRange a length
  bytes : d'.memory.read a.val length = d.memory.read a.val length

theorem Keeps.refl (a : Address) (length : Nat) (d : HostDevice) : d.Keeps a length d := ⟨rfl, rfl⟩

theorem Keeps.trans (h : d.Keeps a length d') (h' : d'.Keeps a length d'') : d.Keeps a length d'' :=
  ⟨h'.range.trans h.range, h'.bytes.trans h.bytes⟩

/-- The next block leaves the ranges of live blocks alone; a range without bytes where it starts
becomes its own. -/
theorem Spaced.keeps_extended (h : d.Spaced) (hlive : d.checkRange a length = .ok location)
    {size : Nat} (hother : 0 < length ∨ a.val ≠ d.room size) (location' : Location) :
    d.Keeps a length (d.extended size location') where
  range := by
    have hbelow := Nat.lt_of_le_of_lt (Nat.le_add_right _ _) (h.lt_of_checkRange hlive)
    rw [hlive, checkRange_extended_of_ok hlive hbelow hother location']
  bytes := d.memory.read_clear_of_disjoint (h.disjoint_room hlive size)

/-- A copy to a place beside a range leaves it alone. -/
theorem keeps_copy {target size : Nat} (h : a.val + length ≤ target ∨ target + size ≤ a.val)
    (source : Nat) (usage : Usage) :
    d.Keeps a length { d with memory := d.memory.copy target source size, usage } :=
  ⟨checkRange_congr rfl a length, d.memory.read_copy_of_disjoint h source⟩

/-- The device without the block at an address. -/
def without (d : HostDevice) (gone : Address) (usage : Usage) : HostDevice :=
  { d with blocks := d.blocks.filter fun c => c.start ≠ gone.val, usage }

/-- A block that is given up leaves the ranges of other blocks alone. -/
theorem keeps_release {b : Block} (hnearest : d.nearest? a.val = some b)
    (hother : b.start ≠ gone.val) (usage : Usage) :
    d.Keeps a length (d.without gone usage) := by
  refine ⟨?_, rfl⟩
  have hkept : (d.without gone usage).nearest? a.val = some b := by
    obtain ⟨hbelow, newer, older, hsplit, hnewer⟩ := List.find?_eq_some_iff_append.1 hnearest
    rw [nearest?, without, List.find?_filter, List.find?_eq_some_iff_append]
    have hbelow : b.start ≤ a.val := of_decide_eq_true hbelow
    refine ⟨by simpa using ⟨hother, hbelow⟩, newer, older, hsplit, fun c hc => ?_⟩
    have habove : a.val < c.start := by simpa using hnewer c hc
    simpa using Or.inr habove
  rw [checkRange, checkRange, hkept, hnearest]

/-- A block that is given up is one of the blocks, and the others are left. -/
theorem Laid.perm_without (h : d.Laid) {b : Block} (hb : d.blockAt? gone = some b) (usage : Usage) :
    d.blocks.Perm (b :: (d.without gone usage).blocks) := by
  obtain ⟨hstart, newer, older, hsplit, hnewer⟩ := List.find?_eq_some_iff_append.1 hb
  have hdescending := h.descending
  rw [hsplit, List.pairwise_append, List.pairwise_cons] at hdescending
  have hstart : b.start = gone.val := of_decide_eq_true hstart
  have hnewer : newer.filter (fun c => c.start ≠ gone.val) = newer :=
    List.filter_eq_self.2 fun c hc => by simpa using hnewer c hc
  have holder : older.filter (fun c => c.start ≠ gone.val) = older :=
    List.filter_eq_self.2 fun c hc => by simpa using Nat.ne_of_lt (hstart ▸ hdescending.2.1.1 c hc)
  rw [without, hsplit, List.filter_append, hnewer,
    List.filter_cons_of_neg (by simpa using hstart), holder]
  exact List.perm_middle

theorem Laid.length_without (h : d.Laid) {b : Block} (hb : d.blockAt? gone = some b)
    (usage : Usage) : (d.without gone usage).blocks.length + 1 = d.blocks.length :=
  (h.perm_without hb usage).length_eq.symm

/-! ### A fresh block and the old one -/

/-- The block of a range that is not the one at an address starts elsewhere. -/
theorem Laid.start_ne (h : d.Laid) {b : Block} (hnearest : d.nearest? a.val = some b)
    (hother : d.nearest? a.val ≠ d.nearest? gone.val) : b.start ≠ gone.val := by
  rintro hstart
  have hblock := h.blockAt?_of_mem (mem_of_nearest? hnearest)
  rw [hstart] at hblock
  exact hother (hnearest.trans (h.nearest?_of_blockAt? hblock).symm)

/-- A fresh block that is given back leaves every range as it was. -/
theorem Spaced.keeps_returned (h : d.Spaced) (hlive : d.checkRange a length = .ok location)
    (size : Nat) (location' : Location) (usage : Usage) :
    d.Keeps a length ((d.extended size location').without ⟨d.room size⟩ usage) :=
  ⟨checkRange_congr (h.laid.filter_blocks_extended size location') a length,
    d.memory.read_clear_of_disjoint (h.disjoint_room hlive size)⟩

/-- The device with a fresh block that holds a copy. -/
def refilled (d : HostDevice) (source : Address) (size : Nat) (location : Location)
    (usage : Usage) :
    HostDevice :=
  { d.extended size location with
    memory := (d.extended size location).memory.copy (d.room size) source.val size, usage }

section Refilled

variable (h : d.Spaced) {source : Address} {size : Nat} (location' : Location) (usage : Usage)

include h

/-- The fresh block is there and holds what the source held. -/
theorem Spaced.refilled_holds (hsource : d.checkRange source size = .ok location) :
    (d.refilled source size location' usage).checkRange ⟨d.room size⟩ size = .ok location' ∧
      (d.refilled source size location' usage).memory.read (d.room size) size =
        d.memory.read source.val size := by
  have hcopied := (d.extended size location').memory.read_copy (d.room size) source.val
    (Nat.le_of_eq (Nat.zero_add size))
  have hheld := d.memory.read_clear_of_disjoint (h.disjoint_room hsource size)
  have hthere := checkRange_mono (d.checkRange_extended size location') (Nat.le_max_left size 1)
  exact ⟨(checkRange_congr rfl _ _).trans hthere, hcopied.trans hheld⟩

theorem Spaced.keeps_refilled (hlive : d.checkRange a length = .ok location)
    (hother : 0 < length ∨ a.val ≠ d.room size) :
    d.Keeps a length (d.refilled source size location' usage) := by
  have hdisjoint := h.disjoint_room hlive size
  have hbeside : a.val + length ≤ d.room size ∨ d.room size + size ≤ a.val := by omega
  have hcopied :
      (d.extended size location').Keeps a length (d.refilled source size location' usage) :=
    keeps_copy hbeside source.val usage
  exact (h.keeps_extended hlive hother location').trans hcopied

/-- Once the old block is given up, the ranges of all others are as they were. -/
theorem Spaced.keeps_moved (hlive : d.checkRange a length = .ok location)
    (hfresh : 0 < length ∨ a.val ≠ d.room size)
    (hother : d.nearest? a.val ≠ d.nearest? source.val) (usage' : Usage) :
    d.Keeps a length ((d.refilled source size location' usage).without source usage') := by
  obtain ⟨b, hnearest, hfits, -⟩ := checkRange_eq_ok_iff.1 hlive
  have hbelow := Nat.lt_of_le_of_lt (Nat.le_add_right _ _) (h.lt_of_checkRange hlive)
  have hkept := nearest?_extended hnearest hfits hbelow hfresh location'
  exact (h.keeps_refilled location' usage hlive hfresh).trans
    (keeps_release (d := d.refilled source size location' usage) hkept
      (h.laid.start_ne hnearest hother) usage')

theorem Spaced.refilled_moved (hsource : source.val ≠ d.room size) (usage' : Usage) :
    (d.refilled source size location' usage).Keeps ⟨d.room size⟩ size
      ((d.refilled source size location' usage).without source usage') := by
  have hfresh := (h.laid.extended size location').nearest?_of_blockAt?
    (blockAt?_extended d size location')
  exact keeps_release (d := d.refilled source size location' usage) hfresh hsource.symm usage'

/-- Where the old range starts with the fresh block, it has no bytes, and giving it up gives the
fresh block back. -/
theorem Spaced.keeps_exchanged (hlive : d.checkRange a length = .ok location)
    (hsource : source.val = d.room size) (hsize : size = 0) (usage' : Usage) :
    d.Keeps a length ((d.refilled source size location' usage).without source usage') where
  range := by
    refine checkRange_congr ?_ a length
    rw [without, hsource]
    exact h.laid.filter_blocks_extended size location'
  bytes := by
    have hdisjoint := h.disjoint_room hlive size
    have hbeside : a.val + length ≤ d.room size ∨ d.room size + size ≤ a.val := by omega
    have hcopied := (d.extended size location').memory.read_copy_of_disjoint hbeside source.val
    exact hcopied.trans (d.memory.read_clear_of_disjoint hdisjoint)

end Refilled

end HostDevice

end TensorDataflow
