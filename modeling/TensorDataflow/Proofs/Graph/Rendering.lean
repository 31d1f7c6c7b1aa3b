import TensorDataflow.Proofs.Graph.Extents
import TensorDataflow.Proofs.Graph.Migration
import TensorDataflow.Proofs.Text.Elements
/-!
# The data of a tensor as text

A listing takes the offset of each element for its position in the storage, but storage starts at
the lowest offset. Where that is zero, the two are the same; where it is not, an element with a
negative offset becomes a question mark, and every other one is read from a place that is not its
own. `Tensor.render_exact` says which tensors are listed as they are.
-/

namespace TensorDataflow

theorem HostDevice.download_of_checkRange {d : HostDevice} {source : Address} {length : Nat}
    {location : Location} (h : d.checkRange source length = .ok location) :
    d.download source length =
      .ok (⟨d.memory, source.val, length⟩, { d with usage := d.usage.recordCopy length }) := by
  rw [download, h]
  rfl

/-- A download that no fault strikes takes the bytes as they are. -/
theorem NativeAct.download_apply {m : Machine} {id : BackendId} {source : Address} {length : Nat}
    {location : Location} (hspares : m.Spares id [.download])
    (hrange : (m.device id).checkRange source length = .ok location) :
    ∃ m', download id source length m = (.ok ⟨(m.device id).memory, source.val, length⟩, m') := by
  have hbody := HostDevice.download_of_checkRange hrange
  obtain ⟨status, _, _, hrefused, _⟩ | ⟨window, d, m', hdone, huse, _⟩ :=
    useDevice_spares hspares .download fun _ d => d.download source length
  · rw [hrefused (List.mem_singleton.2 rfl)] at hbody
    cases hbody
  · rw [hbody] at huse
    cases huse
    exact ⟨m', hdone⟩

namespace Machine

variable {m : Machine} {id : BackendId} {spared : List NativeCall}

theorem Spares.withMemory (h : m.Spares id spared) (memory : Memory) :
    (m.withMemory id memory).Spares id spared where
  there := by
    rw [Machine.withMemory, setBackend, List.length_set]
    exact h.there
  faults := by
    rw [backend_withMemory h.there]
    exact h.faults

theorem device_withMemory (h : id < m.backends.length) (memory : Memory) :
    (m.withMemory id memory).device id = { m.device id with memory } := by
  rw [device, backend_withMemory h]

end Machine

namespace Tensor

/-- The text of the bytes at a position, or a question mark for a position that is none. -/
theorem renderElement_of_lt {kind : ElementKind} {memory : Memory} {start extent : Nat}
    {offset : Int} (h : offset < extent) (places : Nat) :
    renderElement kind places ⟨memory, start, extent * kind.size⟩ offset =
      if offset < 0 then "?"
        else kind.render (memory.read (start + offset.toNat * kind.size) kind.size) places := by
  rw [renderElement]
  split
  · rfl
  · next hnonneg =>
      have hfits : (offset.toNat + 1) * kind.size ≤ extent * kind.size :=
        Nat.mul_le_mul_right _ (by omega)
      rw [Nat.succ_mul] at hfits
      rw [Window.slice?, if_pos hfits]

end Tensor

namespace OperandLayout

/-- The items of a listing. -/
def items (l : OperandLayout) (start : Address) (most places : Nat) (memory : Memory) :
    List String :=
  (List.range (min l.count most)).map fun index => Tensor.renderElement l.kind places
    ⟨memory, start.val, l.storageBytes⟩ (linearOffset index l.shape l.strides)

variable {l : OperandLayout} {start : Address} {most places : Nat} {memory : Memory} {index : Nat}

theorem length_items : (l.items start most places memory).length = min l.count most := by
  rw [items, List.length_map, List.length_range]

namespace Sized

variable (h : l.Sized)

include h

theorem linearOffset_lt (index : Nat) :
    linearOffset index l.shape l.strides < Tensor.extentOf l.shape l.strides := by
  have hbounds := h.linearOffset_within index
  have hextent := extentOf_eq (fun extent hextent => (h extent hextent).1) l.strides
  have hlow := lowest_nonpos (l.shape.zip l.strides)
  omega

theorem items_getElem? (hindex : index < min l.count most) :
    (l.items start most places memory)[index]? =
    some (if linearOffset index l.shape l.strides < 0 then "?"
        else l.kind.render (memory.read (start.val +
        (linearOffset index l.shape l.strides).toNat * l.kind.size) l.kind.size) places) := by
  rw [items, List.getElem?_map, List.getElem?_range hindex, Option.map_some, storageBytes,
    Tensor.renderElement_of_lt (h.linearOffset_lt index)]

/-- Every element shown is read from its place, whatever the memory holds, exactly if none is shown
or no step is negative. -/
theorem items_iff :
    (∀ memory, ∀ index < min l.count most, (l.items start most places memory)[index]? =
        some (l.kind.render (l.element memory start index) places)) ↔ most = 0 ∨ l.Forward := by
  rw [← h.lowest_eq_zero_iff_forward]
  have hlow := lowest_nonpos (l.shape.zip l.strides)
  constructor
  · intro hplaces
    by_contra hnot
    obtain ⟨hsome, hbelow⟩ := not_or.1 hnot
    have hcount := h.count_pos
    have hplace := h.cast_place 0
    rw [linearOffset_zero] at hplace
    -- the first element is read at offset zero, which a memory with ones in
    -- its own place only tells apart from that place
    have hfirst := hplaces (Memory.empty.write (start.val + l.place 0 * l.kind.size)
      (List.replicate l.kind.size 255)) 0 (by omega)
    have hones := Memory.read_write .empty (start.val + l.place 0 * l.kind.size)
      (List.replicate l.kind.size 255)
    rw [List.length_replicate] at hones
    have hbefore : start.val + 0 * l.kind.size + l.kind.size ≤ start.val +
        l.place 0 * l.kind.size := by
      have hpast : 1 * l.kind.size ≤ l.place 0 * l.kind.size := Nat.mul_le_mul_right _ (by omega)
      omega
    rw [h.items_getElem? (by omega), linearOffset_zero, if_neg (Int.lt_irrefl 0),
      Int.toNat_zero, Memory.read_write_of_le _ hbefore, Memory.read_empty, element, hones,
      Option.some_inj] at hfirst
    exact l.kind.render_zeros_ne_ones places hfirst
  · rintro (rfl | hzero) memory index hindex
    · omega
    · have hplace := h.cast_place index
      rw [hzero, Int.sub_zero] at hplace
      rw [h.items_getElem? hindex, ← hplace, if_neg (by omega), Int.toNat_natCast, element]

end Sized

end OperandLayout

namespace Tensor

variable {ε : Type} {mem : TensorMemory ε} {t : Tensor} {l : OperandLayout} {b : Buffer}
  {m : Machine} {location : Location}

theorem ask_of_ok {α : Type} {question : Tensor → Except GraphError α} {answer : α}
    (h : question t = .ok answer) : ask mem question (m, t) = (.ok answer, m, t) := by
  rw [ask_apply, h]
  rfl

theorem render_apply (hlayout : t.layout = .ok l)
    (hdata : t.data = some b) (hspares : m.Spares mem.backend [.download])
    (hholds : (m.device mem.backend).checkRange b.address l.storageBytes = .ok location)
    (most places : Nat) : (render mem most places (m, t)).1 =
      .ok ("[" ++ ", ".intercalate (l.items b.address most places (m.device mem.backend).memory) ++
          (if min l.count most < l.count then ", ...]" else "]")) := by
  obtain ⟨hshape, hstride, hkind⟩ := layout_eq_ok_iff.1 hlayout
  obtain ⟨m', hdownload⟩ := NativeAct.download_apply hspares hholds
  rw [render, Act.bind_of_ok (buffer_apply hdata),
    Act.bind_of_ok (ask_of_ok (concreteShape_eq_ok_iff.2 hshape)),
    Act.bind_of_ok (ask_of_ok (concreteStride_eq_ok_iff.2 hstride)),
    Act.bind_of_ok (ask_of_ok (totalBytes_of_layout hlayout)),
    Act.bind_of_ok (native_of_ok hdownload t), Act.bind_of_ok (Act.get_apply _), ← hkind]
  rfl

/-- A tensor whose buffer holds its storage is listed, and every item comes from the storage: an
element is read at its offset, and is a question mark where that is negative. So the listing shows
the elements themselves, each read at its offset above the lowest one, whatever the memory holds,
exactly if nothing is shown at all or no step is negative along an axis with more than one place. -/
theorem render_exact (hlayout : t.layout = .ok l) (hpos : ∀ extent ∈ l.shape, 0 < extent)
    (hdata : t.data = some b) (hspares : m.Spares mem.backend [.download])
    (hholds : (m.device mem.backend).checkRange b.address l.storageBytes = .ok location)
    (most places : Nat) :
    t.totalBytes = .ok l.storageBytes ∧ ∃ items : Memory → List String,
      (∀ memory, (items memory).length = min l.count most ∧
        (render mem most places (m.withMemory mem.backend memory, t)).1 =
          .ok ("[" ++ ", ".intercalate (items memory) ++
            (if (items memory).length < l.count then ", ...]" else "]"))) ∧
      (∀ memory index item, (items memory)[index]? = some item →
        if linearOffset index l.shape l.strides < 0 then item = "?"
        else item ≠ "?" ∧ item = l.kind.render (memory.read (b.address.val +
            (linearOffset index l.shape l.strides).toNat * l.kind.size) l.kind.size) places) ∧
      ((∀ memory, ∀ index < min l.count most,
          (items memory)[index]? = some (l.kind.render (l.element memory b.address index) places)) ↔
        most = 0 ∨ l.Forward) := by
  have hsized : l.Sized := sized_of_layout hlayout hpos
  refine ⟨totalBytes_of_layout hlayout, l.items b.address most places, fun memory =>
    ⟨OperandLayout.length_items, ?_⟩, fun memory index item hitem => ?_, hsized.items_iff⟩
  · have hdevice := Machine.device_withMemory hspares.there memory
    have hholds' : ((m.withMemory mem.backend memory).device mem.backend).checkRange b.address
        l.storageBytes = .ok location := by
      rw [hdevice]
      exact hholds
    rw [render_apply hlayout hdata (hspares.withMemory memory) hholds',
      OperandLayout.length_items, hdevice]
  · have hindex : index < min l.count most := by
      rw [← OperandLayout.length_items]
      exact (List.getElem?_eq_some_iff.1 hitem).1
    rw [hsized.items_getElem? hindex, Option.some_inj] at hitem
    subst hitem
    split
    · rfl
    · exact ⟨ElementKind.render_ne_mark (Memory.length_read _ _ _) places, rfl⟩

/-- A machine with a tensor of bytes that has been placed and written, in the order of its
storage. -/
def written (shape stride : List Int64) (values : List (Word 1)) : Machine × Tensor :=
  ((do realise (directMemory 0); write (directMemory 0) .u8 values : TensorAct GraphError Unit)
    (⟨[{ device := .fresh [] 0x10000 }], 0⟩, { ofWords shape stride with kind := .u8 })).2

/-- Columns that lie one after the other are listed row by row. -/
theorem render_exact_columns : ∃ items : Memory → List String, ∀ memory,
    (render (directMemory 0) 9 0 ((written [2, 3] [1, 2] [0, 1, 2, 3, 4, 5]).1.withMemory 0 memory,
        (written [2, 3] [1, 2] [0, 1, 2, 3, 4, 5]).2)).1 =
      .ok ("[" ++ ", ".intercalate (items memory) ++ "]") ∧
      ∀ index < 6, (items memory)[index]? = some (ElementKind.u8.render
          (OperandLayout.element ⟨[2, 3], [1, 2], .u8⟩ memory ⟨0x10000⟩ index) 0) := by
  have hspares : (written [2, 3] [1, 2] [0, 1, 2, 3, 4, 5]).1.Spares 0 [.download] :=
    ⟨by decide +kernel, by decide +kernel⟩
  have hholds : ((written [2, 3] [1, 2] [0, 1, 2, 3, 4, 5]).1.device 0).checkRange ⟨0x10000⟩ 6 =
      .ok (.device .cpu 0) := by
    decide +kernel
  obtain ⟨-, items, hlisted, -, hiff⟩ :=
    @render_exact _ (directMemory 0) (written [2, 3] [1, 2] [0, 1, 2, 3, 4, 5]).2 ⟨[2, 3], [1, 2],
      .u8⟩ ⟨⟨0x10000⟩, 6⟩ _ _ (by decide +kernel) (by decide) (by decide +kernel) hspares hholds 9 0
  refine ⟨items, fun memory => ⟨?_, hiff.2 (.inr (by decide)) memory⟩⟩
  obtain ⟨hlength, htext⟩ := hlisted memory
  rw [hlength] at htext
  exact htext

/-- A row that is walked backwards has its first element in the last place; it is read from the
first one, and the others are not shown at all. -/
theorem render_backward :
    (written [3] [-1] [10, 20, 30]).2.layout = .ok ⟨[3], [-1], .u8⟩ ∧
    (written [3] [-1] [10, 20, 30]).2.totalBytes = .ok 3 ∧
    (written [3] [-1] [10, 20, 30]).2.data = some ⟨⟨0x10000⟩, 3⟩ ∧
      (render (directMemory 0) 3 0 (written [3] [-1] [10, 20, 30])).1 = .ok "[10, ?, ?]" ∧
      (List.range 3).map (fun index => ElementKind.u8.render (OperandLayout.element ⟨[3], [-1],
          .u8⟩ ((written [3] [-1] [10, 20, 30]).1.device 0).memory ⟨0x10000⟩ index) 0) = ["30",
        "20", "10"] := by
  refine ⟨?_, ?_, ?_, ?_, ?_⟩
  · decide +kernel
  · decide +kernel
  · decide +kernel
  · decide +kernel
  · decide +kernel

end Tensor

end TensorDataflow
