import Mathlib.Algebra.BigOperators.Group.List.Basic
import Mathlib.Algebra.Order.Ring.Nat
import Mathlib.Algebra.Order.Ring.Int
import TensorDataflow.Proofs.Library.Footprint
/-!
# How far layouts reach

The kernels find an element by its number, by its coordinates, or by the number of its row. Under
steps that are not negative, and extents that a signed word can count, all three lead to an offset
between zero and the last one, so the element lies in the bytes that the layout spans.
-/

namespace TensorDataflow

namespace OperandLayout

/-- A layout with one step per axis, none of them negative, and extents that are neither empty nor
too long for a signed word. -/
structure Plain (l : OperandLayout) : Prop where
  rank : l.shape.length = l.strides.length
  steps : ∀ step ∈ l.strides, 0 ≤ step
  extents : ∀ extent ∈ l.shape, 0 < extent ∧ extent < 0x8000000000000000

/-- The furthest offset that some axes reach together. -/
def reach (axes : List (Nat × Int)) : Nat :=
  (axes.map fun (extent, step) => (extent - 1) * step.natAbs).sum

theorem lastOffset_eq (l : OperandLayout) : l.lastOffset = reach (l.shape.zip l.strides) := rfl

theorem reach_cons (extent : Nat) (step : Int) (axes : List (Nat × Int)) :
    reach ((extent, step) :: axes) = (extent - 1) * step.natAbs + reach axes := by
  simp [reach]

theorem reach_append (axes axes' : List (Nat × Int)) :
    reach (axes ++ axes') = reach axes + reach axes' := by
  simp [reach]

theorem reach_reverse (axes : List (Nat × Int)) : reach axes.reverse = reach axes := by
  simp [reach, List.sum_reverse]

theorem Plain.axes {l : OperandLayout} (h : l.Plain) :
    ∀ axis ∈ l.shape.zip l.strides, (0 < axis.1 ∧ axis.1 < 0x8000000000000000) ∧ 0 ≤ axis.2 := by
  rintro ⟨extent, step⟩ haxis
  obtain ⟨hextent, hstep⟩ := List.of_mem_zip haxis
  exact ⟨h.extents extent hextent, h.steps step hstep⟩

theorem Plain.spanBytes_eq {l : OperandLayout} (h : l.Plain) :
    l.spanBytes = (l.lastOffset + 1) * l.kind.size := by
  rw [spanBytes, if_neg]
  intro hzero
  exact absurd (h.extents 0 (List.contains_iff_mem.1 hzero)).1 (Nat.lt_irrefl 0)

/-- A coordinate below an extent takes at most the last step along it. -/
theorem step_bounds {extent c : Nat} {step : Int} (hc : c < extent)
    (hextent : extent < 0x8000000000000000) (hstep : 0 ≤ step) :
    0 ≤ signedWord c * step ∧ signedWord c * step ≤ ((extent - 1) * step.natAbs : Nat) := by
  rw [signedWord_of_lt (Nat.lt_trans hc hextent), Nat.cast_mul, Int.natAbs_of_nonneg hstep]
  refine ⟨Int.mul_nonneg (Int.natCast_nonneg c) hstep, Int.mul_le_mul_of_nonneg_right ?_ hstep⟩
  omega

theorem offsetFrom_bounds {axes : List (Nat × Int)}
    (h : ∀ axis ∈ axes, (0 < axis.1 ∧ axis.1 < 0x8000000000000000) ∧ 0 ≤ axis.2) (remaining : Nat)
    (offset : Int) :
    offset ≤ offsetFrom remaining offset axes ∧
    offsetFrom remaining offset axes ≤ offset + reach axes := by
  induction axes generalizing remaining offset with
  | nil => simp [offsetFrom, reach]
  | cons axis axes ih =>
      obtain ⟨extent, step⟩ := axis
      obtain ⟨⟨hpos, hlt⟩, hstep⟩ : (0 < extent ∧ extent < 0x8000000000000000) ∧ 0 ≤ step :=
        h _ List.mem_cons_self
      have hrest := ih (fun axis haxis => h axis (List.mem_cons_of_mem _ haxis))
        (remaining / extent) (offset + signedWord (remaining % extent) * step)
      have hone := step_bounds (Nat.mod_lt remaining hpos) hlt hstep
      rw [offsetFrom, if_neg (Nat.ne_of_gt hpos), reach_cons]
      omega

theorem Plain.linearOffset_bounds {l : OperandLayout} (h : l.Plain) (index : Nat) :
    0 ≤ linearOffset index l.shape l.strides ∧
    linearOffset index l.shape l.strides ≤ l.lastOffset := by
  have hbounds := @offsetFrom_bounds (l.shape.zip l.strides).reverse
    (fun axis haxis => h.axes axis (List.mem_reverse.1 haxis)) index 0
  rw [reach_reverse] at hbounds
  rw [linearOffset, lastOffset_eq]
  omega

theorem linearOffset_zero (shape : List Nat) (stride : List Int) :
    linearOffset 0 shape stride = 0 := by
  rw [linearOffset]
  induction (shape.zip stride).reverse with
  | nil => rfl
  | cons axis axes ih =>
      rw [offsetFrom, Nat.zero_div, Nat.zero_mod, signedWord_of_lt (by decide)]
      split
      · rfl
      · simpa using ih

end OperandLayout

namespace Operand

open OperandLayout

theorem span_address_subset {o : Operand} {width : Nat} {offset : Int} (hnonneg : 0 ≤ offset)
    (hle : offset ≤ o.layout.lastOffset) :
    span (o.address width offset) width ⊆ span o.base.val ((o.layout.lastOffset + 1) * width) := by
  obtain ⟨k, rfl⟩ := Int.eq_ofNat_of_zero_le hnonneg
  have hk : k ≤ o.layout.lastOffset := by omega
  have haddress : o.address width (k : Int) = o.base.val + k * width := by
    rw [address, ← Nat.cast_mul, ← Nat.cast_add, Int.toNat_natCast]
  have hmul : (k + 1) * width ≤ (o.layout.lastOffset + 1) * width :=
    Nat.mul_le_mul_right width (Nat.succ_le_succ hk)
  rw [Nat.succ_mul] at hmul
  rw [haddress]
  apply span_subset
  · omega
  · omega

theorem span_offset_subset {o : Operand} (h : o.layout.Plain) (width index : Nat) :
    span (o.address width (o.offset index)) width ⊆
      span o.base.val ((o.layout.lastOffset + 1) * width) :=
  span_address_subset (h.linearOffset_bounds index).1 (h.linearOffset_bounds index).2

/-- An element of a batch of matrices; a batch that is not stepped over may be shorter. -/
theorem span_coordinates_subset {o : Operand} (h : o.layout.Plain) {batches rows cols : Nat}
    {step rowStep colStep : Int}
    (hshape : o.layout.shape = [batches, rows, cols])
    (hstrides : o.layout.strides = [step, rowStep, colStep]) {batch i j : Nat}
    (hbatch : step = 0 ∨ batch < batches) (hi : i < rows) (hj : j < cols) (width : Nat) :
    span (o.address width (o.coordinateOffset [batch, i, j])) width ⊆
      span o.base.val ((o.layout.lastOffset + 1) * width) := by
  have hextents := h.extents
  have hsteps := h.steps
  rw [hshape] at hextents
  rw [hstrides] at hsteps
  simp only [List.mem_cons, List.not_mem_nil, or_false, forall_eq_or_imp,
      forall_eq] at hextents hsteps
  have hlast : o.layout.lastOffset = (batches - 1) * step.natAbs +
      ((rows - 1) * rowStep.natAbs + ((cols - 1) * colStep.natAbs + 0)) := by
    rw [lastOffset_eq, hshape, hstrides]
    rfl
  have hoffset : o.coordinateOffset [batch, i, j] = signedWord batch * step +
      (signedWord i * rowStep + (signedWord j * colStep + 0)) := by
    rw [coordinateOffset, hstrides]
    rfl
  have hfirst : 0 ≤ signedWord batch * step ∧
      signedWord batch * step ≤ ((batches - 1) * step.natAbs : Nat) := by
    rcases hbatch with rfl | hbatch
    · simp
    · exact step_bounds hbatch hextents.1.2 hsteps.1
  have hsecond := step_bounds hi hextents.2.1.2 hsteps.2.1
  have hthird := step_bounds hj hextents.2.2.2 hsteps.2.2
  apply span_address_subset
  · rw [hoffset]
    omega
  · rw [hoffset, hlast]
    push_cast at hfirst hsecond hthird ⊢
    omega

theorem span_row_subset {o : Operand} (h : o.layout.Plain) {last : Nat}
    (hlast : o.layout.shape.getLast? = some last) (row : Nat) {j : Nat} (hj : j < last)
    (width : Nat) :
    span (o.address width (o.offset (row * last) + signedWord j * o.lastStep)) width ⊆
      span o.base.val ((o.layout.lastOffset + 1) * width) := by
  obtain ⟨outer, houter⟩ := List.getLast?_eq_some_iff.1 hlast
  have hrank := h.rank
  rw [houter, List.length_append, List.length_singleton] at hrank
  obtain ⟨outerSteps, step, hsteps⟩ : ∃ outerSteps step,
      o.layout.strides = outerSteps ++ [step] := by
    refine ⟨o.layout.strides.dropLast,
      o.layout.strides.getLast (List.ne_nil_of_length_pos (by omega)), ?_⟩
    rw [List.dropLast_append_getLast]
  rw [hsteps, List.length_append, List.length_singleton, Nat.add_right_cancel_iff] at hrank
  have haxes := h.axes
  have hzip : o.layout.shape.zip o.layout.strides = outer.zip outerSteps ++ [(last, step)] := by
    rw [houter, hsteps, List.zip_append hrank]
    rfl
  rw [hzip] at haxes
  obtain ⟨⟨hpos, hlt⟩, hstep⟩ : (0 < last ∧ last < 0x8000000000000000) ∧ 0 ≤ step :=
    haxes (last, step) (by simp)
  -- the first element of a row has no share of the last axis
  have hstart : o.offset (row * last) = offsetFrom row 0 (outer.zip outerSteps).reverse := by
    rw [offset, linearOffset, hzip, List.reverse_append, List.reverse_singleton,
      List.singleton_append, offsetFrom, if_neg (Nat.ne_of_gt hpos),
      Nat.mul_div_cancel _ hpos, Nat.mul_mod_left, signedWord_of_lt (by decide)]
    simp
  have hbounds := @offsetFrom_bounds (outer.zip outerSteps).reverse
    (fun axis haxis => haxes axis (List.mem_append_left _ (List.mem_reverse.1 haxis))) row 0
  rw [← hstart, reach_reverse] at hbounds
  have hinner := step_bounds hj hlt hstep
  have hlastStep : o.lastStep = step := by rw [lastStep, hsteps, List.getLastD_concat]
  have hlastOffset : o.layout.lastOffset = reach (outer.zip outerSteps) +
      ((last - 1) * step.natAbs + 0) := by
    rw [lastOffset_eq, hzip, reach_append]
    rfl
  apply span_address_subset
  · rw [hlastStep]
    omega
  · rw [hlastStep, hlastOffset]
    push_cast at hinner ⊢
    omega

end Operand

end TensorDataflow
