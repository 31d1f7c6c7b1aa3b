import Mathlib.Algebra.Order.Ring.Nat
import Mathlib.Order.Bounds.Basic
import TensorDataflow.Proofs.Machine.Requests
/-!
# Counters and blocks

The counters of a device are moved beside its table of blocks, once for each call that goes through.
A step lemma (`Purpose.Done.tallied`, `Purpose.Done.booked`) says that both are moved by the same
amounts, and so after any history of calls the counters are what the table and the calls that were
granted add up to: `Machine.usage_exact`.
-/

namespace TensorDataflow

/-- Counters that agree with the live blocks. -/
structure HostDevice.Tallied (d : HostDevice) : Prop where
  live : d.usage.liveBytes = (d.blocks.map Block.size).sum
  outstanding : d.usage.allocations = d.usage.deallocations + d.blocks.length
  places : d.usage.allocations = d.usage.hostAllocations + d.usage.deviceAllocations

/-! ### One call -/

namespace Purpose

/-- The blocks that are given up, at most one. -/
def released (d : HostDevice) : Purpose → List Block
  | release a => (d.blockAt? a).toList
  | _ => []

/-- The sizes of the copies that are made, at most one. -/
def copied : Purpose → List Nat
  | copy size => [size]
  | _ => []

/-- How a call moves the counters that only go up. -/
structure Booked (p : Purpose) (d d' : HostDevice) : Prop where
  cumulative : d'.usage.cumulativeBytes + d.usage.liveBytes = d.usage.cumulativeBytes +
    d'.usage.liveBytes + ((p.released d).map Block.size).sum
  peak : d'.usage.peakBytes = max d'.usage.liveBytes d.usage.peakBytes
  copies : d'.usage.copies = d.usage.copies + p.copied.length
  copiedBytes : d'.usage.copiedBytes = d.usage.copiedBytes + p.copied.sum

variable {p : Purpose} {room : Option Nat} {d d' : HostDevice}

theorem Done.tallied (hdone : p.Done room d d') (hparted : d.Parted) (h : d.Tallied) :
    d'.Tallied := by
  cases p with
  | place size =>
      obtain ⟨-, -, location, rooms, rfl⟩ := hdone.place
      have hperm := d.perm_blocks_placed (room.getD (d.room size)) (max size 1) location
      refine ⟨?_, ?_, ?_⟩
      · rw [(hperm.map Block.size).sum_nat, List.map_cons, List.sum_cons, ← h.live]
        exact Nat.add_comm _ _
      · rw [hperm.length_eq, List.length_cons]
        exact congrArg (· + 1) h.outstanding
      · have hplaces := h.places
        simp only [HostDevice.placed, Usage.recordAllocation]
        split <;> omega
  | release a =>
      obtain ⟨b, hb, rfl⟩ := hdone
      have hperm := hparted.laid.perm_without hb (d.usage.recordRelease b.size)
      have hsum : (d.blocks.map Block.size).sum = b.size +
          ((d.without a (d.usage.recordRelease b.size)).blocks.map Block.size).sum := by
        rw [(hperm.map Block.size).sum_nat, List.map_cons, List.sum_cons]
      have hlength := hperm.length_eq
      refine ⟨?_, ?_, h.places⟩
      · change d.usage.liveBytes - b.size = _
        rw [h.live, hsum, Nat.add_sub_cancel_left]
      · change d.usage.allocations = d.usage.deallocations + 1 + _
        rw [h.outstanding, hlength, List.length_cons]
        omega
  | copy size =>
      obtain ⟨memory, rfl⟩ := hdone
      exact ⟨h.live, h.outstanding, h.places⟩
  | other =>
      obtain ⟨hblocks, -, husage⟩ := hdone
      exact ⟨by rw [husage, hblocks, h.live], by rw [husage, hblocks,
        h.outstanding], by rw [husage, h.places]⟩

theorem Done.booked (hdone : p.Done room d d') (hparted : d.Parted) (h : d.Tallied)
    (hpeak : d.usage.liveBytes ≤ d.usage.peakBytes) : p.Booked d d' := by
  cases p with
  | place size =>
      obtain ⟨-, -, location, rooms, rfl⟩ := hdone.place
      refine ⟨?_, Nat.max_comm _ _, rfl, rfl⟩
      simp only [HostDevice.placed, Usage.recordAllocation, released, List.map_nil, List.sum_nil]
      omega
  | release a =>
      obtain ⟨b, hb, rfl⟩ := hdone
      have hsize : b.size ≤ d.usage.liveBytes := by
        rw [h.live, ((hparted.laid.perm_without hb d.usage).map Block.size).sum_nat, List.map_cons,
          List.sum_cons]
        exact Nat.le_add_right _ _
      refine ⟨?_, (Nat.max_eq_right ?_).symm, rfl, rfl⟩
      · simp only [HostDevice.without, Usage.recordRelease, released, hb, Option.toList_some,
          List.map_cons, List.map_nil, List.sum_cons, List.sum_nil]
        omega
      · exact Nat.le_trans (Nat.sub_le _ _) hpeak
  | copy size =>
      obtain ⟨memory, rfl⟩ := hdone
      exact ⟨rfl, (Nat.max_eq_right hpeak).symm, rfl, rfl⟩
  | other =>
      obtain ⟨-, -, husage⟩ := hdone
      exact ⟨by rw [husage]; rfl, by rw [husage,
        Nat.max_eq_right hpeak], by rw [husage]; rfl, by rw [husage]; rfl⟩

end Purpose

/-! ### All calls -/

namespace Machine

/-- What a call was for, with the device that it met, if it went through. -/
def grantedBy (id : BackendId) (m : Machine) (c : DeviceCall) : List (HostDevice × Purpose) :=
  if (c.perform id m).1.isOk then [(m.device id, c.request.purpose)] else []

def granted (id : BackendId) (m : Machine) : List DeviceCall → List (HostDevice × Purpose)
  | [] => []
  | c :: calls => grantedBy id m c ++ granted id (c.perform id m).2 calls

/-- The blocks that have been given up. -/
def freed (m : Machine) (id : BackendId) (calls : List DeviceCall) : List Block :=
  (granted id m calls).flatMap fun g => g.2.released g.1

/-- The sizes of the copies that have been made, of uploads and downloads as well. -/
def copied (m : Machine) (id : BackendId) (calls : List DeviceCall) : List Nat :=
  (granted id m calls).flatMap fun g => g.2.copied

/-- How many bytes were live at each moment of a history. -/
def levels (m : Machine) (id : BackendId) (calls : List DeviceCall) : Set Nat :=
  {live | ∃ earlier, earlier <+: calls ∧ (m.deviceAfter id earlier).usage.liveBytes = live}

/-- After a history of calls the counters add up to the blocks and to what has been granted. -/
structure Reconciled (m : Machine) (id : BackendId) (calls : List DeviceCall) : Prop where
  tallied : (m.deviceAfter id calls).Tallied
  cumulative : (m.deviceAfter id calls).usage.cumulativeBytes =
    (m.deviceAfter id calls).usage.liveBytes + ((m.freed id calls).map Block.size).sum
  peak : IsGreatest (m.levels id calls) (m.deviceAfter id calls).usage.peakBytes
  copies : (m.deviceAfter id calls).usage.copies = (m.copied id calls).length
  copiedBytes : (m.deviceAfter id calls).usage.copiedBytes = (m.copied id calls).sum

variable {id : BackendId} {m : Machine}

theorem granted_concat (id : BackendId) (m : Machine) (calls : List DeviceCall) (c : DeviceCall) :
    granted id m (calls ++ [c]) = granted id m calls ++ grantedBy id (m.performed id calls) c := by
  induction calls generalizing m with
  | nil => exact List.append_nil _
  | cons c' calls ih =>
      rw [List.cons_append, granted, ih, granted, List.append_assoc]
      rfl

theorem levels_concat (m : Machine) (id : BackendId) (calls : List DeviceCall) (c : DeviceCall) :
    m.levels id (calls ++ [c]) =
      insert (m.deviceAfter id (calls ++ [c])).usage.liveBytes (m.levels id calls) := by
  ext live
  constructor
  · rintro ⟨earlier, hearlier, rfl⟩
    rcases List.prefix_concat_iff.1 hearlier with rfl | hearlier
    · exact .inl rfl
    · exact .inr ⟨earlier, hearlier, rfl⟩
  · rintro (rfl | ⟨earlier, hearlier, rfl⟩)
    · exact ⟨_, List.prefix_refl _, rfl⟩
    · exact ⟨earlier, hearlier.trans (List.prefix_append _ _), rfl⟩

theorem freed_concat (m : Machine) (id : BackendId) (calls : List DeviceCall) (c : DeviceCall) :
    m.freed id (calls ++ [c]) = m.freed id calls ++
      (grantedBy id (m.performed id calls) c).flatMap fun g => g.2.released g.1 := by
  rw [freed, granted_concat, List.flatMap_append, freed]

theorem copied_concat (m : Machine) (id : BackendId) (calls : List DeviceCall) (c : DeviceCall) :
    m.copied id (calls ++ [c]) = m.copied id calls ++
      (grantedBy id (m.performed id calls) c).flatMap fun g => g.2.copied := by
  rw [copied, granted_concat, List.flatMap_append, copied]

theorem reconciled_start {emulated : List DeviceKind} {origin : Nat} {rooms : List Nat}
    (hfresh : m.device id = .fresh emulated origin rooms) : m.Reconciled id [] := by
  have hdevice : m.deviceAfter id [] = .fresh emulated origin rooms := hfresh
  have hzero : (m.deviceAfter id []).usage = {} := by
    rw [hdevice]
    rfl
  refine ⟨?_, ?_, ⟨⟨[], List.prefix_refl _, ?_⟩, ?_⟩, ?_, ?_⟩
  · rw [hdevice]
    exact ⟨rfl, rfl, rfl⟩
  · rw [hzero]
    rfl
  · rw [hzero]
  · rintro live ⟨earlier, hearlier, rfl⟩
    rw [List.prefix_nil.1 hearlier, hzero]
  · rw [hzero]
    rfl
  · rw [hzero]
    rfl

/-- A call that fails moves neither blocks nor counters, and nothing is granted by it. -/
theorem Reconciled.refused {calls : List DeviceCall} {c : DeviceCall}
    (h : m.Reconciled id calls) {status : Status} {m' : Machine}
    (hfailed : c.perform id (m.performed id calls) = (.error status, m'))
    (hsame : m'.device id = m.deviceAfter id calls) : m.Reconciled id (calls ++ [c]) := by
  have hdevice : m.deviceAfter id (calls ++ [c]) = m.deviceAfter id calls := by
    rw [deviceAfter, performed_concat, hfailed, hsame]
  have hnothing : grantedBy id (m.performed id calls) c = [] := by
    rw [grantedBy, hfailed]
    rfl
  have hlevels : m.levels id (calls ++ [c]) = m.levels id calls := by
    rw [levels_concat, hdevice]
    exact Set.insert_eq_of_mem ⟨calls, List.prefix_refl _, rfl⟩
  refine ⟨hdevice ▸ h.tallied, ?_, ?_, ?_, ?_⟩
  · rw [hdevice, freed_concat, hnothing, List.flatMap_nil, List.append_nil, h.cumulative]
  · rw [hdevice, hlevels]
    exact h.peak
  · rw [hdevice, copied_concat, hnothing, List.flatMap_nil, List.append_nil, h.copies]
  · rw [hdevice, copied_concat, hnothing, List.flatMap_nil, List.append_nil, h.copiedBytes]

/-- A call that goes through moves the blocks and the counters by the same amounts. -/
theorem Reconciled.allowed {calls : List DeviceCall} {c : DeviceCall} (h : m.Reconciled id calls)
    (hparted : (m.deviceAfter id calls).Parted) {m' : Machine}
    (hwent : c.perform id (m.performed id calls) = (.ok (), m'))
    (hdone : c.request.purpose.Done c.room (m.deviceAfter id calls) (m'.device id)) :
    m.Reconciled id (calls ++ [c]) := by
  have hdevice : m.deviceAfter id (calls ++ [c]) = m'.device id := by
    rw [deviceAfter, performed_concat, hwent]
  have hgranted : grantedBy id (m.performed id calls) c =
      [(m.deviceAfter id calls, c.request.purpose)] := by
    rw [grantedBy, hwent]
    rfl
  have hfreed : m.freed id (calls ++ [c]) = m.freed id calls ++
      c.request.purpose.released (m.deviceAfter id calls) := by
    rw [freed_concat, hgranted, List.flatMap_singleton]
  have hcopied : m.copied id (calls ++ [c]) = m.copied id calls ++ c.request.purpose.copied := by
    rw [copied_concat, hgranted, List.flatMap_singleton]
  have hbooked := hdone.booked hparted h.tallied (h.peak.2 ⟨calls, List.prefix_refl _, rfl⟩)
  have hcumulative := hbooked.cumulative
  have hbefore := h.cumulative
  refine ⟨hdevice ▸ hdone.tallied hparted h.tallied, ?_, ?_, ?_, ?_⟩
  · rw [hdevice, hfreed, List.map_append, List.sum_append]
    omega
  · rw [levels_concat, hdevice, hbooked.peak]
    exact h.peak.insert _
  · rw [hdevice, hcopied, List.length_append, hbooked.copies, h.copies]
  · rw [hdevice, hcopied, List.sum_append, hbooked.copiedBytes, h.copiedBytes]

theorem reconciled_performed {emulated : List DeviceKind} {origin : Nat} {rooms : List Nat}
    {calls : List DeviceCall} (hthere : id < m.backends.length)
    (hfresh : m.device id = .fresh emulated origin rooms) (hhonest : m.Honest id calls) :
    m.Reconciled id calls := by
  induction calls using List.reverseRecOn with
  | nil => exact reconciled_start hfresh
  | append_singleton calls c ih =>
      have hbefore := (honest_concat_iff.1 hhonest).1
      obtain ⟨status, m', hfailed, -, hsame⟩ | ⟨m', hwent, -, hdone⟩ :=
        c.perform_outcome id (spares_performed hthere calls)
      · exact (ih hbefore).refused hfailed hsame
      · exact (ih hbefore).allowed (parted_performed hthere hfresh hbefore) hwent hdone

/-- After any history of calls on a device that had done nothing, some of which may have failed: the
live bytes are the sizes of the live blocks, as many allocations are outstanding as blocks are live,
all allocations were of host memory or of device memory, what has been allocated is live or has been
freed, the peak is the highest level of any moment, and the copies counted are those that went
through. A further call that fails changes nothing of the device. -/
theorem usage_exact {emulated : List DeviceKind} {origin : Nat} {rooms : List Nat}
    {calls : List DeviceCall} (hthere : id < m.backends.length)
    (hfresh : m.device id = .fresh emulated origin rooms) (hhonest : m.Honest id calls) :
    (m.deviceAfter id calls).usage.liveBytes =
      ((m.deviceAfter id calls).blocks.map Block.size).sum ∧
      (m.deviceAfter id calls).usage.outstanding = (m.deviceAfter id calls).blocks.length ∧
      (m.deviceAfter id calls).usage.allocations = (m.deviceAfter id calls).usage.hostAllocations +
        (m.deviceAfter id calls).usage.deviceAllocations ∧
      (m.deviceAfter id calls).usage.cumulativeBytes = (m.deviceAfter id calls).usage.liveBytes +
        ((m.freed id calls).map Block.size).sum ∧
      IsGreatest {live | ∃ earlier, earlier <+: calls ∧ (m.deviceAfter id earlier).usage.liveBytes =
          live} (m.deviceAfter id calls).usage.peakBytes ∧
      (m.deviceAfter id calls).usage.copies = (m.copied id calls).length ∧
      (m.deviceAfter id calls).usage.copiedBytes = (m.copied id calls).sum ∧
      ∀ c status m', DeviceCall.perform id c (m.performed id calls) = (.error status, m') →
      m'.device id = m.deviceAfter id calls := by
  have hreconciled := reconciled_performed hthere hfresh hhonest
  have houtstanding : (m.deviceAfter id calls).usage.outstanding =
      (m.deviceAfter id calls).blocks.length := by
    rw [Usage.outstanding, hreconciled.tallied.outstanding, Nat.add_sub_cancel_left]
  refine ⟨hreconciled.tallied.live, houtstanding, hreconciled.tallied.places,
    hreconciled.cumulative, hreconciled.peak, hreconciled.copies, hreconciled.copiedBytes,
    fun c status m' hfailed => ?_⟩
  obtain ⟨_, _, hrefused, -, hsame⟩ | ⟨_, hwent, -, -⟩ :=
    c.perform_outcome id (spares_performed hthere calls)
  · cases hrefused.symm.trans hfailed
    exact hsame
  · cases hwent.symm.trans hfailed

/-- A device that has done nothing, on which the first copy is going to fail. -/
def strained : Machine :=
  ⟨[{ device := .fresh [] 0x10000, faults := [⟨.memcpy, .internalError, 0, 1⟩] }], 0⟩

/-- A block that the device places, one of no bytes where the host has room, three copies that go
through and one that does not, and a block that is given up at the second try. -/
def errands : List DeviceCall :=
  [⟨0, none, .mallocHost 100⟩, ⟨0, some 0x20000, .malloc 0⟩, ⟨0, none, .upload ⟨0x10000⟩ [1, 2, 3]⟩,
    ⟨0, none, .memcpy ⟨0x20000⟩ ⟨0x10000⟩ 1 .hostToDevice⟩,
    ⟨1, none, .memcpy ⟨0x20000⟩ ⟨0x10000⟩ 1 .hostToDevice⟩, ⟨0, none, .free ⟨0x10000⟩⟩,
    ⟨0, none, .freeHost ⟨0x10000⟩⟩, ⟨0, none, .download ⟨0x20000⟩ 1⟩]

/-- The empty block counts as one byte, the failed copy not at all, and the peak was before the
block was given up. -/
theorem usage_exact_errands :
    strained.Honest 0 errands ∧ (strained.deviceAfter 0 errands).usage.liveBytes = 1 ∧
    (strained.deviceAfter 0 errands).usage.outstanding = 1 ∧
      (strained.deviceAfter 0 errands).usage.cumulativeBytes = 101 ∧
      (strained.deviceAfter 0 errands).usage.copies = 3 ∧
      (strained.deviceAfter 0 errands).usage.copiedBytes = 5 ∧
      IsGreatest {live | ∃ earlier,
        earlier <+: errands ∧ (strained.deviceAfter 0 earlier).usage.liveBytes = live} 101 := by
  have hhonest : strained.Honest 0 errands := by decide +kernel
  obtain ⟨hlive, houtstanding, -, hcumulative, hpeak, hcopies, hcopied, -⟩ :=
    @usage_exact 0 strained [] 0x10000 [] errands (by decide) rfl hhonest
  have hblocks : (strained.deviceAfter 0 errands).blocks = [⟨0x20000, 1, .device .cpu 0⟩] := by
    decide +kernel
  have hfreed : strained.freed 0 errands = [⟨0x10000, 100, .host⟩] := by decide +kernel
  have hsizes : strained.copied 0 errands = [3, 1, 1] := by decide +kernel
  have hhighest : (strained.deviceAfter 0 errands).usage.peakBytes = 101 := by decide +kernel
  rw [hblocks] at hlive houtstanding
  rw [hlive, hfreed] at hcumulative
  rw [hsizes] at hcopies hcopied
  exact ⟨hhonest, hlive, houtstanding, hcumulative, hcopies, hcopied, hhighest ▸ hpeak⟩

end Machine

end TensorDataflow
