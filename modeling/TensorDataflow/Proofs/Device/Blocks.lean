import Mathlib.Data.List.TakeWhile
import TensorDataflow.Device.Host
/-!
# Blocks of a device

A new block is clear of the live ones, wherever the host has room for it, so it hides none of them
and is found at its own address (`HostDevice.nearest?_extended`, `HostDevice.checkRange_extended`).
Where the blocks lie in descending order, the block that starts at an address decides all that is
asked there: the location of the address, and whether it can be released.
-/

namespace TensorDataflow

/-- What is taken out by keys leaves the keys that are kept alone. -/
theorem lookup_filter {α β : Type} [BEq α] [LawfulBEq α] (kept : α → Bool) (key : α)
    (table : List (α × β)) :
    (table.filter fun entry => kept entry.1).lookup key = if kept key = true then table.lookup key
      else none := by
  induction table with
  | nil => simp
  | cons entry table ih =>
      obtain ⟨k, v⟩ := entry
      by_cases hk : kept k = true
      · rw [List.filter_cons_of_pos (by exact hk), List.lookup_cons, List.lookup_cons, ih]
        by_cases hkey : key = k
        · subst hkey
          rw [beq_self_eq_true]
          exact (if_pos hk).symm
        · rw [beq_eq_false_iff_ne.2 hkey]
      · rw [List.filter_cons_of_neg (by exact hk), ih]
        split
        · next hkey =>
            have hne : key ≠ k := fun hsame => hk (hsame ▸ hkey)
            rw [List.lookup_cons, beq_eq_false_iff_ne.2 hne]
        · rfl

theorem lookup_filter_ne {α β : Type} [DecidableEq α] {key other : α} (h : other ≠ key)
    (table : List (α × β)) :
    (table.filter fun entry => entry.1 ≠ key).lookup other = table.lookup other := by
  rw [lookup_filter (fun k => decide (k ≠ key)), if_pos (decide_eq_true h)]

/-- What was copied is read at its new place as it was read at the old one. -/
theorem Memory.read_copy (m : Memory) (target source : Nat) {length offset count : Nat}
    (h : offset + count ≤ length) :
    (m.copy target source length).read (target + offset) count =
      m.read (source + offset) count := by
  apply List.ext_getElem?
  intro i
  rw [getElem?_read, getElem?_read]
  by_cases hi : i < count
  · rw [if_pos hi, if_pos hi, byte_copy, if_pos (by omega),
      show source + (target + offset + i - target) = source + offset + i by omega]
  · rw [if_neg hi, if_neg hi]

namespace HostDevice

/-! ### One more block -/

/-- A place that the host offers is an address, and clear of every live block. -/
theorem offer?_eq_some {d : HostDevice} {size start : Nat} (h : d.offer? size = some start) :
    start ∈ d.rooms ∧ start ≠ 0 ∧ d.Vacant start (max size 1) ∧
    ∀ b ∈ d.blocks, b.start ≠ start := by
  obtain ⟨hhead, htaken⟩ := Option.filter_eq_some_iff.1 h
  exact ⟨List.mem_of_head? hhead, of_decide_eq_true htaken⟩

/-- A block goes where the host offers room, or above all places so far. -/
theorem room_cases (d : HostDevice) (size : Nat) :
    d.offer? size = some (d.room size) ∨ d.offer? size = none ∧ d.room size = d.nextAddress := by
  cases hoffer : d.offer? size with
  | some start => exact .inl (by rw [room, hoffer, Option.getD_some])
  | none => exact .inr ⟨rfl, by rw [room, hoffer, Option.getD_none]⟩

/-- Where the next block goes depends on what is live and what is offered. -/
theorem room_congr {d d' : HostDevice} (hblocks : d'.blocks = d.blocks)
    (hrooms : d'.rooms = d.rooms)
    (hnext : d'.nextAddress = d.nextAddress) (size : Nat) : d'.room size = d.room size := by
  have hvacant : ∀ start, d'.Vacant start (max size 1) ↔ d.Vacant start (max size 1) := fun start =>
    ⟨fun h => ⟨h.within, hblocks ▸ h.clear⟩, fun h => ⟨h.within, hblocks ▸ h.clear⟩⟩
  have hoffer : d'.offer? size = d.offer? size := by
    simp only [offer?, hrooms, hvacant, hblocks]
  rw [room, room, hoffer, hnext]

theorem nextAddress_le_placed (d : HostDevice) (start size : Nat) (location : Location) :
    d.nextAddress ≤ (d.placed start size location).nextAddress := Nat.le_max_left _ _

theorem finish_lt_placed (d : HostDevice) (start size : Nat) (location : Location) :
    start + size < (d.placed start size location).nextAddress := by
  have hgap : 0 < gap := by decide
  rw [placed]
  dsimp only
  omega

theorem nextAddress_le_extended (d : HostDevice) (size : Nat) (location : Location) :
    d.nextAddress ≤ (d.extended size location).nextAddress := d.nextAddress_le_placed _ _ location

theorem room_lt_extended (d : HostDevice) (size : Nat) (location : Location) :
    d.room size < (d.extended size location).nextAddress :=
  Nat.lt_of_le_of_lt (Nat.le_add_right _ _) (d.finish_lt_placed _ (max size 1) location)

theorem rooms_extended (d : HostDevice) (size : Nat) (location : Location) :
    (d.extended size location).rooms <:+ d.rooms := List.tail_suffix _

theorem perm_blocks_placed (d : HostDevice) (start size : Nat) (location : Location) :
    (d.placed start size location).blocks.Perm (⟨start, size, location⟩ :: d.blocks) := by
  have hsplit :=
    List.takeWhile_append_dropWhile (p := fun b : Block => start < b.start) (l := d.blocks)
  exact List.perm_middle.trans (.of_eq (congrArg _ hsplit))

theorem mem_blocks_placed {d : HostDevice} {start size : Nat} {location : Location} {b : Block} :
    b ∈ (d.placed start size location).blocks ↔ b = ⟨start, size, location⟩ ∨ b ∈ d.blocks :=
  (d.perm_blocks_placed start size location).mem_iff.trans List.mem_cons

/-- The blocks above the new one, the new one, and the others. -/
theorem find?_blocks_placed (d : HostDevice) (start size : Nat) (location : Location)
    (p : Block → Bool) :
    (d.placed start size location).blocks.find? p =
      ((d.blocks.takeWhile (start < ·.start)).find? p).or
        (([⟨start, size, location⟩].find? p).or
            ((d.blocks.dropWhile (start < ·.start)).find? p)) := by
  rw [placed, List.find?_append, ← List.singleton_append, List.find?_append]

/-- Where the new block is none of those sought, the one that is found is one of the others. -/
theorem find?_blocks_placed_of_neg (d : HostDevice) {start size : Nat} {location : Location}
    {p : Block → Bool} (h : ¬ p ⟨start, size, location⟩) :
    (d.placed start size location).blocks.find? p = d.blocks.find? p := by
  rw [find?_blocks_placed, List.find?_singleton, if_neg h, Option.none_or, ← List.find?_append,
    List.takeWhile_append_dropWhile]

theorem find?_blocks_placed_self (d : HostDevice) {start size : Nat} {location : Location}
    {p : Block → Bool} (h : p ⟨start, size, location⟩) (habove : ∀ b, start < b.start → ¬ p b) :
    (d.placed start size location).blocks.find? p = some ⟨start, size, location⟩ := by
  have hnone : (d.blocks.takeWhile (start < ·.start)).find? p = none :=
    List.find?_eq_none.2 fun b hb => habove b (by simpa using List.mem_takeWhile_imp hb)
  rw [find?_blocks_placed, hnone, Option.none_or, List.find?_singleton, if_pos h, Option.some_or]

theorem allocate_of_lt (d : HostDevice) {size : Nat} (h : size < capacity) (location : Location) :
    d.allocate size location = .ok (⟨d.room size⟩, d.extended size location) := by
  have hrequest : ¬ maxRequest < size := by
    unfold capacity at h
    unfold maxRequest
    omega
  rw [allocate, if_neg hrequest, if_neg fun hlarge => Nat.not_le.2 h hlarge.1]

theorem allocate_eq_ok {d d' : HostDevice} {size : Nat} {location : Location} {a : Address}
    (h : d.allocate size location = .ok (a, d')) :
    a = ⟨d.room size⟩ ∧ d' = d.extended size location := by
  rw [allocate] at h
  split at h
  · cases h
  · split at h
    · cases h
    · cases h
      exact ⟨rfl, rfl⟩

/-! ### Ranges beside a new block -/

theorem mem_of_nearest? {d : HostDevice} {address : Nat} {b : Block}
    (hb : d.nearest? address = some b) : b ∈ d.blocks :=
  List.mem_of_find?_eq_some hb

theorem start_le_of_nearest? {d : HostDevice} {address : Nat} {b : Block}
    (hb : d.nearest? address = some b) : b.start ≤ address := by
  simpa using List.find?_some hb

theorem nearest?_placed_self (d : HostDevice) (start size : Nat) (location : Location) :
    (d.placed start size location).nearest? start = some ⟨start, size, location⟩ :=
  d.find?_blocks_placed_self (decide_eq_true (Nat.le_refl start)) fun b hb => by simpa using hb

theorem checkRange_extended (d : HostDevice) (size : Nat) (location : Location) :
    (d.extended size location).checkRange ⟨d.room size⟩ (max size 1) = .ok location := by
  have hfound : (d.extended size location).nearest? (d.room size) =
      some ⟨d.room size, max size 1, location⟩ := d.nearest?_placed_self _ _ _
  rw [checkRange, hfound]
  exact if_pos (Nat.le_refl _)

theorem nearest?_placed_of_lt (d : HostDevice) {start size : Nat} {location : Location}
    {address : Nat}
    (h : address < start) : (d.placed start size location).nearest? address = d.nearest? address :=
  d.find?_blocks_placed_of_neg (by simpa using h)

theorem nearest?_placed_of_above {d : HostDevice} {start size : Nat} {location : Location}
    {address : Nat} {b : Block} (hb : d.nearest? address = some b) (habove : start < b.start) :
    (d.placed start size location).nearest? address = some b := by
  obtain ⟨hstart, above, below, hsplit, hnone⟩ := List.find?_eq_some_iff_append.1 hb
  have hfirst : ∀ c ∈ above ++ [b], start < c.start := by
    intro c hc
    rcases List.mem_append.1 hc with hc | hc
    · have hlt : address < c.start := by simpa using hnone c hc
      exact Nat.lt_trans habove (Nat.lt_of_le_of_lt (of_decide_eq_true hstart) hlt)
    · rwa [List.mem_singleton.1 hc]
  have htaken : (d.blocks.takeWhile (start < ·.start)).find? (·.start ≤ address) = some b := by
    rw [hsplit, ← List.singleton_append, ← List.append_assoc,
      List.takeWhile_append_of_pos fun c hc => decide_eq_true (hfirst c hc), List.append_assoc]
    exact List.find?_eq_some_iff_append.2 ⟨hstart, above, _, rfl, hnone⟩
  rw [nearest?, find?_blocks_placed, htaken, Option.some_or]

/-- A range that shares no byte with a new block belongs to the same block as before; at the
very end of a block a range without bytes may come to belong to the new one. -/
theorem nearest?_placed_of_clear {d : HostDevice} {start size : Nat}
    {location : Location} {a : Address}
    {length : Nat} {b : Block} (hb : d.nearest? a.val = some b) (hfits : a.val + length ≤ b.finish)
    (hsize : 0 < size) (hclear : start + size ≤ b.start ∨ b.finish ≤ start)
    (hother : 0 < length ∨ a.val ≠ start) :
    (d.placed start size location).nearest? a.val = some b := by
  by_cases hlt : a.val < start
  · rw [d.nearest?_placed_of_lt hlt, hb]
  · -- the range starts in or behind the place of the new block,
    -- so the block that it lies in is above
    have hbelow : ¬ b.finish ≤ start := by omega
    have habove : start + size ≤ b.start := hclear.resolve_right hbelow
    exact nearest?_placed_of_above hb (by omega)

/-- A live range is clear of the next block, if it starts below the places that are left. -/
theorem clear_room {d : HostDevice} {a : Address} {b : Block} (hb : d.nearest? a.val = some b)
    (hbelow : a.val < d.nextAddress) (size : Nat) :
    a.val < d.room size ∨ d.room size + max size 1 ≤ b.start ∨ b.finish ≤ d.room size := by
  obtain hoffer | ⟨-, hroom⟩ := d.room_cases size
  · obtain ⟨-, -, hvacant, -⟩ := offer?_eq_some hoffer
    exact .inr (hvacant.clear b (mem_of_nearest? hb))
  · exact .inl (hroom ▸ hbelow)

theorem nearest?_extended {d : HostDevice} {a : Address} {length : Nat} {b : Block}
    (hb : d.nearest? a.val = some b) (hfits : a.val + length ≤ b.finish)
    (hbelow : a.val < d.nextAddress) {size : Nat} (hother : 0 < length ∨ a.val ≠ d.room size)
    (location : Location) : (d.extended size location).nearest? a.val = some b := by
  have hsize : 0 < max size 1 := Nat.lt_of_lt_of_le Nat.one_pos (Nat.le_max_right _ _)
  show (d.placed (d.room size) (max size 1) location).nearest? a.val = some b
  obtain hlt | hclear := clear_room hb hbelow size
  · rw [d.nearest?_placed_of_lt hlt, hb]
  · exact nearest?_placed_of_clear hb hfits hsize hclear hother

theorem checkRange_eq_ok_iff {d : HostDevice} {a : Address} {length : Nat} {location : Location} :
    d.checkRange a length = .ok location ↔
      ∃ b, d.nearest? a.val = some b ∧ a.val + length ≤ b.finish ∧ b.location = location := by
  rw [checkRange]
  cases d.nearest? a.val with
  | none => simp
  | some b =>
      dsimp only
      split
      · next hfits => simp [hfits]
      · next hover => simp [hover]

theorem checkRange_extended_of_ok {d : HostDevice} {a : Address} {length : Nat}
    {location : Location}
    (hlive : d.checkRange a length = .ok location) (hbelow : a.val < d.nextAddress) {size : Nat}
    (hother : 0 < length ∨ a.val ≠ d.room size) (location' : Location) :
    (d.extended size location').checkRange a length = .ok location := by
  obtain ⟨b, hnearest, hfits, hlocation⟩ := checkRange_eq_ok_iff.1 hlive
  exact checkRange_eq_ok_iff.2
    ⟨b, nearest?_extended hnearest hfits hbelow hother location', hfits, hlocation⟩

theorem checkRange_mono {d : HostDevice} {a : Address} {length length' : Nat} {location : Location}
    (h : d.checkRange a length = .ok location) (hle : length' ≤ length) :
    d.checkRange a length' = .ok location := by
  obtain ⟨b, hnearest, hfits, hlocation⟩ := checkRange_eq_ok_iff.1 h
  exact checkRange_eq_ok_iff.2
    ⟨b, hnearest, Nat.le_trans (Nat.add_le_add_left hle _) hfits, hlocation⟩

/-- A range that lies in a block lies in one as long as blocks are only added, and in the same one
if it has any bytes. -/
theorem exists_checkRange_extended {d : HostDevice} {a : Address} {length : Nat}
    {location : Location}
    (hlive : d.checkRange a length = .ok location) (hbelow : a.val < d.nextAddress) (size : Nat)
    (location' : Location) :
    ∃ location'', (d.extended size location').checkRange a length = .ok location'' ∧
      (0 < length → location'' = location) := by
  by_cases hother : 0 < length ∨ a.val ≠ d.room size
  · exact ⟨location, checkRange_extended_of_ok hlive hbelow hother location', fun _ => rfl⟩
  · obtain ⟨hlength, hroom⟩ : length = 0 ∧ a.val = d.room size := by omega
    have hnew := checkRange_mono (checkRange_extended d size location') (Nat.zero_le _)
    rw [← hroom, ← hlength] at hnew
    exact ⟨location', hnew, fun hpos => absurd hlength (Nat.ne_of_gt hpos)⟩

def choosing (d : HostDevice) (thread : ThreadId) (kind : DeviceKind) (id : Nat) : HostDevice :=
  { d with selected := (thread, kind, id) :: d.selected.filter fun s => s.1 ≠ thread }

theorem room_choosing (d : HostDevice) (thread : ThreadId) (kind : DeviceKind) (id size : Nat) :
    (d.choosing thread kind id).room size = d.room size :=
  room_congr (show (d.choosing thread kind id).blocks = d.blocks from rfl) rfl rfl size

theorem extended_choosing (d : HostDevice) (thread : ThreadId) (kind : DeviceKind) (id size : Nat)
    (location : Location) :
    (d.choosing thread kind id).extended size location =
      (d.extended size location).choosing thread kind id := by
  rw [extended, room_choosing]
  rfl

theorem select_of_lt {d : HostDevice} {kind : DeviceKind} {id : Nat} (h : id < d.deviceCount kind)
    (thread : ThreadId) : d.select thread kind id = .ok (d.choosing thread kind id) := by
  rw [deviceCount] at h
  split at h
  · next hsupports => rw [select, hsupports, if_neg (by simp), if_neg (Nat.not_le.2 h), choosing]
  · cases h

theorem select_eq_ok {d d' : HostDevice} {thread : ThreadId} {kind : DeviceKind} {id : Nat}
    (h : d.select thread kind id = .ok d') : d' = d.choosing thread kind id := by
  rw [select] at h
  split at h
  · cases h
  · split at h
    · cases h
    · cases h
      rfl

theorem selection_choosing (d : HostDevice) (thread : ThreadId) (kind : DeviceKind) (id : Nat) :
    (d.choosing thread kind id).selection thread = (kind, id) := by
  rw [selection, choosing, List.lookup_cons_self]
  rfl

theorem selection_choosing_of_ne (d : HostDevice) {thread other : ThreadId} (h : other ≠ thread)
    (kind : DeviceKind) (id : Nat) :
    (d.choosing thread kind id).selection other = d.selection other := by
  rw [selection, choosing, List.lookup_cons, beq_eq_false_iff_ne.2 h, selection]
  dsimp only
  rw [lookup_filter_ne h]

/-! ### The block at an address -/

/-- The block that starts at an address. -/
def blockAt? (d : HostDevice) (a : Address) : Option Block :=
  d.blocks.find? fun b => b.start = a.val

/-- The blocks are in descending order, and all of them start below the places that are left. -/
structure Laid (d : HostDevice) : Prop where
  descending : d.blocks.Pairwise fun b c => c.start < b.start
  below : ∀ b ∈ d.blocks, b.start < d.nextAddress

theorem mem_of_blockAt? {d : HostDevice} {a : Address} {b : Block} (hb : d.blockAt? a = some b) :
    b ∈ d.blocks :=
  List.mem_of_find?_eq_some hb

theorem start_of_blockAt? {d : HostDevice} {a : Address} {b : Block} (hb : d.blockAt? a = some b) :
    b.start = a.val := by
  simpa using List.find?_some hb

theorem blockAt?_extended (d : HostDevice) (size : Nat) (location : Location) :
    (d.extended size location).blockAt? ⟨d.room size⟩ = some ⟨d.room size, max size 1, location⟩ :=
  d.find?_blocks_placed_self (decide_eq_true rfl) fun b hb => by simpa using Nat.ne_of_gt hb

theorem blockAt?_extended_of_ne (d : HostDevice) (size : Nat) (location : Location) {a : Address}
    (h : a.val ≠ d.room size) : (d.extended size location).blockAt? a = d.blockAt? a :=
  d.find?_blocks_placed_of_neg (by simpa using h.symm)

theorem release_eq_ok_iff {d d' : HostDevice} {a : Address} {accepts : Location → Bool} :
    d.release a accepts = .ok d' ↔ ∃ b, d.blockAt? a = some b ∧ accepts b.location = true ∧
      { d with
        blocks := d.blocks.filter fun c => c.start ≠ a.val
        usage := d.usage.recordRelease b.size } = d' := by
  rw [release, blockAt?]
  cases d.blocks.find? fun b => b.start = a.val with
  | none => simp
  | some b =>
      dsimp only
      split
      · next haccepts => simp [haccepts]
      · next hrefuses => simp [hrefuses]

theorem blockAt?_filter {d d' : HostDevice} {gone a : Address}
    (h : d'.blocks = d.blocks.filter fun c => c.start ≠ gone.val) (hne : a.val ≠ gone.val) :
    d'.blockAt? a = d.blockAt? a := by
  rw [blockAt?, blockAt?, h, List.find?_filter]
  congr 1
  funext b
  by_cases hb : b.start = a.val
  · simp [hb, hne]
  · simp [hb]

namespace Laid

variable {d : HostDevice} (h : d.Laid)

include h

/-- No block starts where the next one goes. -/
theorem start_ne_room {b : Block} (hb : b ∈ d.blocks) (size : Nat) : b.start ≠ d.room size := by
  obtain hoffer | ⟨-, hroom⟩ := d.room_cases size
  · obtain ⟨-, -, -, hother⟩ := offer?_eq_some hoffer
    exact hother b hb
  · exact hroom ▸ Nat.ne_of_lt (h.below b hb)

/-- The blocks that are not above an address. -/
theorem le_of_mem_dropWhile {start : Nat} {b : Block}
    (hb : b ∈ d.blocks.dropWhile (start < ·.start)) :
    b.start ≤ start := by
  have hdescending := h.descending
  generalize d.blocks = blocks at hb hdescending
  induction blocks with
  | nil => cases hb
  | cons c blocks ih =>
      obtain ⟨hfirst, hrest⟩ := List.pairwise_cons.1 hdescending
      rw [List.dropWhile_cons] at hb
      split at hb
      · exact ih hb hrest
      · next hc =>
          have hc : c.start ≤ start := by simpa using hc
          rcases List.mem_cons.1 hb with rfl | hb
          · exact hc
          · exact Nat.le_trans (Nat.le_of_lt (hfirst b hb)) hc

theorem placed {start : Nat} (hother : ∀ b ∈ d.blocks, b.start ≠ start) (size : Nat)
    (location : Location) : (d.placed start size location).Laid where
  descending := by
    have habove : ∀ b ∈ d.blocks.takeWhile (start < ·.start), start < b.start :=
      fun b hb => by simpa using List.mem_takeWhile_imp hb
    have hbelow : ∀ b ∈ d.blocks.dropWhile (start < ·.start), b.start < start := fun b hb =>
      Nat.lt_of_le_of_ne (h.le_of_mem_dropWhile hb) (hother b ((List.dropWhile_suffix _).subset hb))
    refine List.pairwise_append.2 ⟨h.descending.sublist (List.takeWhile_sublist _),
      List.pairwise_cons.2 ⟨hbelow, h.descending.sublist (List.dropWhile_sublist _)⟩, ?_⟩
    intro b hb c hc
    rcases List.mem_cons.1 hc with rfl | hc
    · exact habove b hb
    · exact Nat.lt_trans (hbelow c hc) (habove b hb)
  below b hb := by
    rcases mem_blocks_placed.1 hb with rfl | hb
    · exact Nat.lt_of_le_of_lt (Nat.le_add_right _ _) (d.finish_lt_placed start size location)
    · exact Nat.lt_of_lt_of_le (h.below b hb) (d.nextAddress_le_placed start size location)

theorem extended (size : Nat) (location : Location) : (d.extended size location).Laid := by
  obtain ⟨hdescending, hbelow⟩ :=
    h.placed (fun _ hb => h.start_ne_room hb size) (max size 1) location
  exact ⟨hdescending, hbelow⟩

/-- The others are left when the block that was placed last is given back. -/
theorem filter_blocks_extended (size : Nat) (location : Location) :
    (d.extended size location).blocks.filter (fun b => b.start ≠ d.room size) = d.blocks := by
  have hkept : d.blocks.filter (fun b => b.start ≠ d.room size) = d.blocks :=
    List.filter_eq_self.2 fun b hb => by simpa using h.start_ne_room hb size
  rw [HostDevice.extended, HostDevice.placed, List.filter_append,
    List.filter_cons_of_neg (by simp), ← List.filter_append, List.takeWhile_append_dropWhile, hkept]

theorem sublist {d' : HostDevice} (hblocks : d'.blocks.Sublist d.blocks)
    (hnext : d.nextAddress ≤ d'.nextAddress) : d'.Laid :=
  ⟨h.descending.sublist hblocks,
    fun b hb => Nat.lt_of_lt_of_le (h.below b (hblocks.subset hb)) hnext⟩

theorem ne_room_of_blockAt? {a : Address} {b : Block} (hb : d.blockAt? a = some b) (size : Nat) :
    a.val ≠ d.room size :=
  start_of_blockAt? hb ▸ h.start_ne_room (mem_of_blockAt? hb) size

theorem lt_of_blockAt? {a : Address} {b : Block} (hb : d.blockAt? a = some b) :
    a.val < d.nextAddress :=
  start_of_blockAt? hb ▸ h.below b (mem_of_blockAt? hb)

theorem nearest?_of_blockAt? {a : Address} {b : Block} (hb : d.blockAt? a = some b) :
    d.nearest? a.val = some b := by
  have hdescending := h.descending
  rw [blockAt?] at hb
  rw [nearest?]
  generalize d.blocks = blocks at hb hdescending
  induction blocks with
  | nil => cases hb
  | cons c blocks ih =>
      obtain ⟨habove, hrest⟩ := List.pairwise_cons.1 hdescending
      by_cases hc : c.start = a.val
      · rw [List.find?_cons_of_pos (by simpa using hc)] at hb
        rw [List.find?_cons_of_pos (by simpa using Nat.le_of_eq hc), hb]
      · -- the block sought comes later in the list, so this one starts above the address
        rw [List.find?_cons_of_neg (by simpa using hc)] at hb
        have hstart : b.start = a.val := by simpa using List.find?_some hb
        have hlt := habove b (List.mem_of_find?_eq_some hb)
        rw [List.find?_cons_of_neg (by simpa using hstart ▸ hlt), ih hb hrest]

/-- An address at which a block starts lies where the block does. -/
theorem location?_of_blockAt? {a : Address} {b : Block} (hb : d.blockAt? a = some b) :
    d.location? a = some b.location := by
  have hstart := start_of_blockAt? hb
  rw [location?, checkRange, h.nearest?_of_blockAt? hb]
  dsimp only
  rw [if_pos (by rw [Block.finish]; omega)]
  rfl

end Laid

/-! ### Copies -/

/-- Both ranges of a copy lie in blocks that its direction allows. -/
def Copyable (d : HostDevice) (target source : Address) (size : Nat)
    (direction : CopyDirection) : Prop :=
  ∃ from_ to_, d.checkRange source size = .ok from_ ∧ d.checkRange target size = .ok to_ ∧
    (if direction.fromDevice then from_.deviceResident else from_.hostAccessible) = true ∧
    (if direction.toDevice then to_.deviceResident else to_.hostAccessible) = true

theorem memcpy_eq_ok_iff {d d' : HostDevice} {target source : Address} {size : Nat}
    {direction : CopyDirection} :
    d.memcpy target source size direction = .ok d' ↔ d.Copyable target source size direction ∧
      { d with
        memory := d.memory.copy target.val source.val size
        usage := d.usage.recordCopy size } = d' := by
  rw [memcpy, Copyable]
  cases hsource : d.checkRange source size with
  | error status => simp [bind, Except.bind]
  | ok from_ =>
      cases htarget : d.checkRange target size with
      | error status => simp [bind, Except.bind]
      | ok to_ =>
          simp only [bind, Except.bind, Except.ok.injEq, exists_and_left, exists_eq_left']
          generalize (if direction.fromDevice then from_.deviceResident else from_.hostAccessible) =
            sourceFits
          generalize (if direction.toDevice then to_.deviceResident else to_.hostAccessible) =
            targetFits
          cases sourceFits <;> cases targetFits <;>
            simp [pure, Except.pure, throw, throwThe, MonadExceptOf.throw]

theorem checkRange_congr {d d' : HostDevice} (h : d'.blocks = d.blocks) (a : Address)
    (length : Nat) : d'.checkRange a length = d.checkRange a length := by
  rw [checkRange, checkRange, nearest?, nearest?, h]

end HostDevice

end TensorDataflow
