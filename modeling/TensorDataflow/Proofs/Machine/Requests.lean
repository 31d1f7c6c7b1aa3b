import Mathlib.Data.List.Induction
import TensorDataflow.Proofs.Device.Hosting
import TensorDataflow.Proofs.Machine.Faults
/-!
# What is asked of a device

A native call on a device makes a block, gives one up, copies bytes or does none of these. Whether a
fault strikes or the device refuses, a call that fails leaves the device as it was; a call that goes
through does what it is for and nothing else (`DeviceRequest.serve_fulfils`). So whatever threads
ask of a device, and wherever the host has room, its blocks share no byte, and a range of bytes is
looked up exactly: `Machine.checkRange_exact`.
-/

namespace TensorDataflow

/-- The native calls on a device. -/
inductive DeviceRequest where
  | init
  | synchronize
  | deviceCount (kind : DeviceKind)
  | setDevice (kind : DeviceKind) (deviceId : Nat)
  | currentDevice
  | streamCreate
  | streamDestroy (stream : Nat)
  | malloc (size : Nat)
  | mallocHost (size : Nat)
  | mallocAsync (size stream : Nat)
  | free (a : Address)
  | freeHost (a : Address)
  | freeAsync (a : Address) (stream : Nat)
  | memcpy (target source : Address) (size : Nat) (direction : CopyDirection)
  | memcpyAsync (target source : Address) (size : Nat) (direction : CopyDirection) (stream : Nat)
  | upload (target : Address) (bytes : List UInt8)
  | download (source : Address) (length : Nat)

/-- What a call is for: a block, giving up the block at an address, copying some bytes, or nothing
that concerns blocks. -/
inductive Purpose where
  | place (size : Nat)
  | release (a : Address)
  | copy (size : Nat)
  | other

namespace DeviceRequest

def purpose : DeviceRequest → Purpose
  | malloc size | mallocHost size | mallocAsync size _ => .place size
  | free a | freeHost a | freeAsync a _ => .release a
  | memcpy _ _ size _ | memcpyAsync _ _ size _ _ => .copy size
  | upload _ bytes => .copy bytes.length
  | download _ length => .copy length
  | init | synchronize | deviceCount _ | setDevice
      _ _ | currentDevice | streamCreate | streamDestroy _ => .other

/-- Makes the call; what it answers besides success is left out. -/
def serve (id : BackendId) : DeviceRequest → NativeAct Unit
  | init => NativeAct.init id
  | synchronize => NativeAct.synchronize id
  | deviceCount kind => discard (NativeAct.deviceCount id kind)
  | setDevice kind deviceId => NativeAct.setDevice id kind deviceId
  | currentDevice => discard (NativeAct.currentDevice id)
  | streamCreate => discard (NativeAct.streamCreate id)
  | streamDestroy stream => NativeAct.streamDestroy id stream
  | malloc size => discard (NativeAct.malloc id size)
  | mallocHost size => discard (NativeAct.mallocHost id size)
  | mallocAsync size stream => discard (NativeAct.mallocAsync id size stream)
  | free a => NativeAct.free id a
  | freeHost a => NativeAct.freeHost id a
  | freeAsync a stream => NativeAct.freeAsync id a stream
  | memcpy target source size direction => NativeAct.memcpy id target source size direction
  | memcpyAsync target source size direction stream =>
      NativeAct.memcpyAsync id target source size direction stream
  | upload target bytes => NativeAct.upload id target bytes
  | download source length => discard (NativeAct.download id source length)

/-- Makes the call, and a block where the host has room. -/
def serveAt (id : BackendId) (room : Nat) : DeviceRequest → NativeAct Unit
  | malloc size =>
      discard (NativeAct.useDevice id .malloc fun thread d => d.mallocAt thread room size)
  | mallocHost size =>
      discard (NativeAct.useDevice id .mallocHost fun _ d => d.mallocHostAt room size)
  | mallocAsync size stream =>
      discard (NativeAct.useDevice id .mallocAsync fun thread d => do
        d.checkStream stream
        d.mallocAt thread room size)
  | r => r.serve id

end DeviceRequest

/-! ### What a call does -/

namespace Purpose

/-- What a call that goes through has done to the device. A block is made where the host has room,
or at the next place that it has offered beforehand. -/
def Done (room : Option Nat) (d d' : HostDevice) : Purpose → Prop
  | place size => size ≤ HostDevice.maxRequest ∧ ∃ location, match room with
      | none => d' = d.extended size location
      | some start => start ≠ 0 ∧ d' = d.placed start (max size 1) location
  | release a => ∃ b, d.blockAt? a = some b ∧ d' = d.without a (d.usage.recordRelease b.size)
  | copy size => ∃ memory, d' = { d with memory, usage := d.usage.recordCopy size }
  | other => d'.blocks = d.blocks ∧ d'.nextAddress = d.nextAddress ∧ d'.usage = d.usage

variable {room : Option Nat} {size : Nat} {a : Address} {d d' : HostDevice}

/-- Both ways of making a block put it among the others in the same way. -/
theorem Done.place (h : (place size).Done room d d') :
    size ≤ HostDevice.maxRequest ∧ room ≠ some 0 ∧ ∃ location rooms,
      d' = { d.placed (room.getD (d.room size)) (max size 1) location with rooms } := by
  obtain ⟨hsize, location, h⟩ := h
  refine ⟨hsize, ?_⟩
  cases room with
  | none => exact ⟨nofun, location, _, h⟩
  | some start => exact ⟨fun hzero => h.1 (Option.some.inj hzero), location, _, h.2⟩

theorem done_of_allocate {location : Location} {a : Address}
    (h : d.allocate size location = .ok (a, d')) : (place size).Done none d d' :=
  ⟨HostDevice.le_maxRequest_of_allocate h, location, (HostDevice.allocate_eq_ok h).2⟩

theorem done_of_allocateAt {location : Location} {start : Nat} {a : Address}
    (h : d.allocateAt start size location = .ok (a, d')) : (place size).Done (some start) d d' := by
  obtain ⟨hsize, hplaced⟩ := HostDevice.allocateAt_eq_ok h
  exact ⟨hsize, location, hplaced⟩

theorem done_of_release {accepts : Location → Bool} (h : d.release a accepts = .ok d') :
    (release a).Done room d d' := by
  obtain ⟨b, hb, -, rfl⟩ := HostDevice.release_eq_ok_iff.1 h
  exact ⟨b, hb, rfl⟩

theorem done_of_memcpy {target source : Address} {direction : CopyDirection}
    (h : d.memcpy target source size direction = .ok d') : (copy size).Done room d d' := by
  obtain ⟨-, rfl⟩ := HostDevice.memcpy_eq_ok_iff.1 h
  exact ⟨_, rfl⟩

theorem done_of_upload {target : Address} {bytes : List UInt8}
    (h : d.upload target bytes = .ok d') : (copy bytes.length).Done room d d' := by
  obtain ⟨_, _, h⟩ := except_bind_eq_ok.1 h
  cases h
  exact ⟨_, rfl⟩

theorem done_of_download {source : Address} {window : Window}
    (h : d.download source size = .ok (window, d')) : (copy size).Done room d d' := by
  obtain ⟨_, _, h⟩ := except_bind_eq_ok.1 h
  cases h
  exact ⟨_, rfl⟩

theorem done_of_select {thread : ThreadId} {kind : DeviceKind} {id : Nat}
    (h : d.select thread kind id = .ok d') : other.Done room d d' := by
  obtain rfl := HostDevice.select_eq_ok h
  exact ⟨rfl, rfl, rfl⟩

theorem done_of_destroyStream {stream : Nat} (h : d.destroyStream stream = .ok d') :
    other.Done room d d' := by
  rw [HostDevice.destroyStream] at h
  split at h
  · cases h
    exact ⟨rfl, rfl, rfl⟩
  · cases h

end Purpose

namespace NativeAct

variable {id : BackendId} {room : Option Nat} {p : Purpose} {α : Type}

/-- An action that fails and leaves the device as it was, or does what it is for. -/
def Fulfils (id : BackendId) (room : Option Nat) (p : Purpose) (act : NativeAct α) : Prop :=
  ∀ m : Machine, m.Spares id [] →
    (∃ status m', act m = (.error status, m') ∧ m.Leaves id [] (m.device id) (m.library id) m') ∨
      ∃ a d m', act m = (.ok a, m') ∧ p.Done room (m.device id) d ∧
      m.Leaves id [] d (m.library id) m'

theorem Fulfils.discard {act : NativeAct α} (h : act.Fulfils id room p) :
    Fulfils id room p (Functor.discard act : NativeAct Unit) := by
  intro m hspares
  obtain ⟨status, m', hfailed, hleaves⟩ | ⟨a, d, m', hwent, hdone, hleaves⟩ := h m hspares
  · refine .inl ⟨status, m', ?_, hleaves⟩
    rw [Act.discard_apply, hfailed]
    rfl
  · refine .inr ⟨(), d, m', ?_, hdone, hleaves⟩
    rw [Act.discard_apply, hwent]
    rfl

/-- Where there is room does not matter to a call that makes no block. -/
theorem Fulfils.elsewhere {act : NativeAct α} (h : act.Fulfils id room p)
    (hother : ∀ size, p ≠ .place size) (room' : Option Nat) : act.Fulfils id room' p := by
  cases p with
  | place size => exact absurd rfl (hother size)
  | release a => exact h
  | copy size => exact h
  | other => exact h

theorem useDevice_fulfils {call : NativeCall}
    {use : ThreadId → HostDevice → Except Status (α × HostDevice)}
    (huse : ∀ thread d a d', use thread d = .ok (a, d') → p.Done room d d') :
    (useDevice id call use).Fulfils id room p := by
  intro m hspares
  obtain ⟨status, m', hfailed, -, hleaves⟩ | ⟨a, d, m', hwent, hused, hleaves⟩ :=
    useDevice_spares hspares call use
  · exact .inl ⟨status, m', hfailed, hleaves⟩
  · exact .inr ⟨a, d, m', hwent, huse _ _ _ _ hused, hleaves⟩

theorem changeDevice_fulfils {call : NativeCall}
    {change : ThreadId → HostDevice → Except Status HostDevice}
    (hchange : ∀ thread d d', change thread d = .ok d' → p.Done room d d') :
    (changeDevice id call change).Fulfils id room p := by
  intro m hspares
  obtain ⟨status, m', hfailed, -, hleaves⟩ | ⟨d, m', hwent, hchanged, hleaves⟩ :=
    changeDevice_spares hspares call change
  · exact .inl ⟨status, m', hfailed, hleaves⟩
  · exact .inr ⟨(), d, m', hwent, hchange _ _ _ hchanged, hleaves⟩

theorem inspectDevice_fulfils (call : NativeCall) (look : ThreadId → HostDevice → Except Status α) :
    (inspectDevice id call look).Fulfils id room .other := by
  rw [inspectDevice_eq_useDevice]
  refine useDevice_fulfils fun thread d a d' hused => ?_
  cases hlook : look thread d with
  | error status =>
      rw [hlook] at hused
      cases hused
  | ok a' =>
      rw [hlook] at hused
      cases hused
      exact ⟨rfl, rfl, rfl⟩

end NativeAct

namespace DeviceRequest

open NativeAct

/-- What is asked of a stream is done once the stream is found. -/
theorem ok_of_checkStream {α : Type} {d : HostDevice} {stream : Nat} {x : Except Status α} {a : α}
    (h : (do d.checkStream stream; x) = .ok a) : x = .ok a := by
  obtain ⟨_, _, h⟩ := except_bind_eq_ok.1 h
  exact h

/-- Every native call on a device does what it is for, or fails and leaves the device as it was. -/
theorem serve_fulfils (id : BackendId) (r : DeviceRequest) :
    (r.serve id).Fulfils id none r.purpose := by
  unfold serve
  cases r with
  | init => exact inspectDevice_fulfils _ _
  | synchronize => exact inspectDevice_fulfils _ _
  | deviceCount kind => exact (inspectDevice_fulfils _ _).discard
  | setDevice kind deviceId => exact changeDevice_fulfils fun _ _ _ h => Purpose.done_of_select h
  | currentDevice => exact (inspectDevice_fulfils _ _).discard
  | streamCreate =>
      refine (useDevice_fulfils fun _ _ _ _ h => ?_).discard
      cases h
      exact ⟨rfl, rfl, rfl⟩
  | streamDestroy stream =>
      exact changeDevice_fulfils fun _ _ _ h => Purpose.done_of_destroyStream h
  | malloc size => exact (useDevice_fulfils fun _ _ _ _ h => Purpose.done_of_allocate h).discard
  | mallocHost size => exact (useDevice_fulfils fun _ _ _ _ h => Purpose.done_of_allocate h).discard
  | mallocAsync size stream =>
      exact (useDevice_fulfils fun _ _ _ _ h =>
        Purpose.done_of_allocate (ok_of_checkStream h)).discard
  | free a => exact changeDevice_fulfils fun _ _ _ h => Purpose.done_of_release h
  | freeHost a => exact changeDevice_fulfils fun _ _ _ h => Purpose.done_of_release h
  | freeAsync a stream =>
      exact changeDevice_fulfils fun _ _ _ h => Purpose.done_of_release (ok_of_checkStream h)
  | memcpy target source size direction =>
      exact changeDevice_fulfils fun _ _ _ h => Purpose.done_of_memcpy h
  | memcpyAsync target source size direction stream =>
      exact changeDevice_fulfils fun _ _ _ h => Purpose.done_of_memcpy (ok_of_checkStream h)
  | upload target bytes => exact changeDevice_fulfils fun _ _ _ h => Purpose.done_of_upload h
  | download source length =>
      exact (useDevice_fulfils fun _ _ _ _ h => Purpose.done_of_download h).discard

/-- The same where the host has room. -/
theorem serveAt_fulfils (id : BackendId) (room : Nat) (r : DeviceRequest) :
    (r.serveAt id room).Fulfils id (some room) r.purpose := by
  unfold serveAt
  split
  · exact (useDevice_fulfils fun _ _ _ _ h => Purpose.done_of_allocateAt h).discard
  · exact (useDevice_fulfils fun _ _ _ _ h => Purpose.done_of_allocateAt h).discard
  · exact (useDevice_fulfils fun _ _ _ _ h =>
      Purpose.done_of_allocateAt (ok_of_checkStream h)).discard
  · next hmalloc hmallocHost hmallocAsync =>
      refine (serve_fulfils id r).elsewhere (fun size hplace => ?_) (some room)
      cases r with
      | malloc size => exact hmalloc size rfl
      | mallocHost size => exact hmallocHost size rfl
      | mallocAsync size stream => exact hmallocAsync size stream rfl
      | _ => cases hplace

end DeviceRequest

/-! ### Histories of calls -/

/-- A call of a thread, and the place where the host has room for a block if it is asked, which is
zero if it has none. Where no host is asked, the block goes to the next place that has been offered
beforehand. -/
structure DeviceCall where
  thread : ThreadId
  room : Option Nat
  request : DeviceRequest

namespace DeviceCall

def act (id : BackendId) (c : DeviceCall) : NativeAct Unit :=
  match c.room with
  | none => c.request.serve id
  | some room => c.request.serveAt id room

/-- Makes the call on its thread. -/
def perform (id : BackendId) (c : DeviceCall) : NativeAct Unit :=
  fun m => c.act id { m with thread := c.thread }

theorem act_fulfils (id : BackendId) (c : DeviceCall) :
    (c.act id).Fulfils id c.room c.request.purpose := by
  obtain ⟨thread, room, request⟩ := c
  cases room with
  | none => exact request.serve_fulfils id
  | some room => exact request.serveAt_fulfils id room

/-- A call fails and leaves the device as it was, or does what it is for. -/
theorem perform_outcome (id : BackendId) (c : DeviceCall) {m : Machine} (hthere : m.Spares id []) :
    (∃ status m', c.perform id m = (.error status, m') ∧ m'.Spares id [] ∧
      m'.device id = m.device id) ∨
      ∃ m', c.perform id m = (.ok (), m') ∧ m'.Spares id [] ∧
      c.request.purpose.Done c.room (m.device id) (m'.device id) := by
  obtain ⟨status, m', hfailed, hleaves⟩ | ⟨_, d, m', hwent, hdone, hleaves⟩ :=
    c.act_fulfils id { m with thread := c.thread } ⟨hthere.there, hthere.faults⟩
  · exact .inl ⟨status, m', hfailed, hleaves.spares, hleaves.device⟩
  · exact .inr ⟨m', hwent, hleaves.spares, hleaves.device ▸ hdone⟩

/-- A block is made only where it is clear of all live blocks. -/
def Honest (d : HostDevice) (c : DeviceCall) : Prop :=
  match c.request.purpose with
  | .place size =>
      size ≤ HostDevice.maxRequest → c.room ≠ some 0 →
        d.Vacant (c.room.getD (d.room size)) (max size 1)
  | _ => True

instance (d : HostDevice) (c : DeviceCall) : Decidable (c.Honest d) :=
  match h : c.request.purpose with
  | .place size =>
      decidable_of_iff (size ≤ HostDevice.maxRequest → c.room ≠ some 0 →
        d.Vacant (c.room.getD (d.room size)) (max size 1)) (by rw [Honest, h])
  | .release _ => .isTrue (by rw [Honest, h]; trivial)
  | .copy _ => .isTrue (by rw [Honest, h]; trivial)
  | .other => .isTrue (by rw [Honest, h]; trivial)

end DeviceCall

theorem Purpose.Done.parted {c : DeviceCall} {d d' : HostDevice}
    (hdone : c.request.purpose.Done c.room d d') (h : d.Parted) (hhonest : c.Honest d) :
    d'.Parted := by
  rw [DeviceCall.Honest] at hhonest
  cases hpurpose : c.request.purpose with
  | place size =>
      rw [hpurpose] at hdone hhonest
      obtain ⟨hsize, hroom, location, rooms, rfl⟩ := hdone.place
      have hfilled : 0 < max size 1 := Nat.lt_of_lt_of_le Nat.one_pos (Nat.le_max_right _ _)
      exact (h.placed hfilled (hhonest hsize hroom) location).sublist (List.Sublist.refl _) rfl
  | release a =>
      rw [hpurpose] at hdone
      obtain ⟨b, -, rfl⟩ := hdone
      exact h.sublist List.filter_sublist rfl
  | copy size =>
      rw [hpurpose] at hdone
      obtain ⟨memory, rfl⟩ := hdone
      exact h.sublist (List.Sublist.refl _) rfl
  | other =>
      rw [hpurpose] at hdone
      obtain ⟨hblocks, hnext, -⟩ := hdone
      exact h.sublist (hblocks ▸ List.Sublist.refl _) hnext

namespace Machine

/-- The machine after some calls, whether they fail or not. -/
def performed (m : Machine) (id : BackendId) (calls : List DeviceCall) : Machine :=
  calls.foldl (fun m c => (c.perform id m).2) m

def deviceAfter (m : Machine) (id : BackendId) (calls : List DeviceCall) : HostDevice :=
  (m.performed id calls).device id

/-- The host is honest throughout. -/
def Honest (id : BackendId) (m : Machine) : List DeviceCall → Prop
  | [] => True
  | c :: calls => c.Honest (m.device id) ∧ Honest id (c.perform id m).2 calls

instance decidableHonest (id : BackendId) :
    (m : Machine) → (calls : List DeviceCall) → Decidable (m.Honest id calls)
  | _, [] => .isTrue trivial
  | m, c :: calls =>
      have := decidableHonest id (c.perform id m).2 calls
      inferInstanceAs (Decidable (c.Honest (m.device id) ∧ Honest id (c.perform id m).2 calls))

variable {id : BackendId} {m : Machine}

theorem performed_concat (id : BackendId) (m : Machine) (calls : List DeviceCall) (c : DeviceCall) :
    m.performed id (calls ++ [c]) = (c.perform id (m.performed id calls)).2 := by
  rw [performed, List.foldl_append, List.foldl_cons, List.foldl_nil, performed]

theorem honest_concat_iff {calls : List DeviceCall} {c : DeviceCall} :
    m.Honest id (calls ++ [c]) ↔ m.Honest id calls ∧ c.Honest (m.deviceAfter id calls) := by
  induction calls generalizing m with
  | nil => exact and_comm
  | cons c' calls ih => exact (and_congr_right fun _ => ih).trans and_assoc.symm

theorem spares_performed (hthere : id < m.backends.length) (calls : List DeviceCall) :
    (m.performed id calls).Spares id [] := by
  induction calls using List.reverseRecOn with
  | nil => exact ⟨hthere, fun _ _ => List.not_mem_nil⟩
  | append_singleton calls c ih =>
      rw [performed_concat]
      obtain ⟨status, m', hfailed, hspares, -⟩ | ⟨m', hwent, hspares, -⟩ := c.perform_outcome id ih
      · exact hfailed ▸ hspares
      · exact hwent ▸ hspares

/-- No two blocks of a device share a byte, whatever has been asked of it. -/
theorem parted_performed {emulated : List DeviceKind} {origin : Nat} {rooms : List Nat}
    {calls : List DeviceCall} (hthere : id < m.backends.length)
    (hfresh : m.device id = .fresh emulated origin rooms) (hhonest : m.Honest id calls) :
    (m.deviceAfter id calls).Parted := by
  induction calls using List.reverseRecOn with
  | nil =>
      exact (congrArg HostDevice.Parted hfresh).mpr (HostDevice.parted_fresh emulated origin rooms)
  | append_singleton calls c ih =>
      obtain ⟨hbefore, hnow⟩ := honest_concat_iff.1 hhonest
      have hparted := ih hbefore
      rw [deviceAfter, performed_concat]
      obtain ⟨status, m', hfailed, -, hsame⟩ | ⟨m', hwent, -, hdone⟩ :=
        c.perform_outcome id (spares_performed hthere calls)
      · rw [hfailed, hsame]
        exact hparted
      · rw [hwent]
        exact hdone.parted hparted hnow

/-- Whatever threads have asked of a device and through whatever faults, wherever the host had room:
a range of at least one byte is found exactly if one live block contains all of it and no other
block does, and it lies where that block lies. Any other range is a bad parameter, and so is one
that reaches the end of all addresses. -/
theorem checkRange_exact {emulated : List DeviceKind} {origin : Nat} {rooms : List Nat}
    {calls : List DeviceCall} (hthere : id < m.backends.length)
    (hfresh : m.device id = .fresh emulated origin rooms) (hhonest : m.Honest id calls)
    (a : Address) {length : Nat} (hlength : 0 < length) :
    (∀ location, (m.deviceAfter id calls).checkRange a length = .ok location ↔
      ∃ b, (m.deviceAfter id calls).holders a length = [b] ∧ b.location = location) ∧
      ((∀ b, (m.deviceAfter id calls).holders a length ≠ [b]) →
        (m.deviceAfter id calls).checkRange a length = .error .badParam) ∧
      (Address.limit ≤ a.val + length →
        (m.deviceAfter id calls).checkRange a length = .error .badParam) := by
  have hparted := parted_performed hthere hfresh hhonest
  have hfound : ∀ {location}, (m.deviceAfter id calls).checkRange a length = .ok location ↔
      ∃ b, (m.deviceAfter id calls).holders a length = [b] ∧ b.location = location :=
    HostDevice.checkRange_eq_ok_iff_holders hparted.apart hlength
  refine ⟨fun location => hfound,
    fun hnone => HostDevice.checkRange_eq_error_iff.2 ⟨rfl, fun location hok => ?_⟩,
    hparted.checkRange_of_limit_le⟩
  obtain ⟨b, hholders, -⟩ := hfound.1 hok
  exact hnone b hholders

/-- A device that has done nothing, with one accelerator beside the processor. -/
def idle : Machine := ⟨[.fresh [.nvidia] 0x10000], 0⟩

/-- Two blocks side by side, of which the lower one is given up and another one takes its place, and
a block up to the last address. -/
def neighbours : List DeviceCall :=
  [⟨0, none, .streamCreate⟩, ⟨0, some 0x20000, .mallocAsync 64 1⟩,
    ⟨0, some 0x20040, .mallocHost 64⟩, ⟨1, none, .setDevice .nvidia 0⟩,
    ⟨1, some 0xffffffffffffffc0, .malloc 63⟩,
    ⟨1, none, .freeHost ⟨0x20000⟩⟩, ⟨1, some 0x20000, .malloc 64⟩]

/-- Each block is found up to its last byte, no range that crosses from one to the next is, and none
that crosses the end of all addresses. -/
theorem checkRange_exact_neighbours :
    idle.Honest 0 neighbours ∧ (idle.deviceAfter 0 neighbours).checkRange ⟨0x20000⟩ 64 = .ok
      (.device .nvidia 0) ∧ (idle.deviceAfter 0 neighbours).checkRange ⟨0x20040⟩ 64 = .ok .host ∧
      (idle.deviceAfter 0 neighbours).checkRange ⟨0x2003f⟩ 2 = .error .badParam ∧
      (idle.deviceAfter 0 neighbours).checkRange ⟨0xffffffffffffffc0⟩ 63 = .ok (.device .nvidia 0) ∧
      (idle.deviceAfter 0 neighbours).checkRange ⟨0xffffffffffffffc0⟩ 64 = .error .badParam := by
  have hhonest : idle.Honest 0 neighbours := by decide +kernel
  have hexact := fun a {length} =>
    @checkRange_exact 0 idle [.nvidia] 0x10000 [] neighbours (by decide) rfl hhonest a length
  refine ⟨hhonest,
    ((hexact _ (by decide)).1 _).2 ⟨⟨0x20000, 64, .device .nvidia 0⟩, by decide +kernel, rfl⟩,
    ((hexact _ (by decide)).1 _).2 ⟨⟨0x20040, 64, .host⟩, by decide +kernel, rfl⟩,
    (hexact _ (by decide)).2.1 fun b hb => ?_, ((hexact _ (by decide)).1 _).2
      ⟨⟨0xffffffffffffffc0, 63, .device .nvidia 0⟩, by decide +kernel, rfl⟩,
    (hexact _ (by decide)).2.2 (by decide)⟩
  have hnone : (idle.deviceAfter 0 neighbours).holders ⟨0x2003f⟩ 2 = [] := by decide +kernel
  cases hnone.symm.trans hb

end Machine

end TensorDataflow
