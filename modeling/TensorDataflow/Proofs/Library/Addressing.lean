import Mathlib.Algebra.BigOperators.Group.List.Lemmas
import Mathlib.Algebra.Order.BigOperators.Group.List
import Mathlib.Data.Fintype.Card
import TensorDataflow.Proofs.Library.Compiled
import TensorDataflow.Proofs.Library.Elementwise
/-!
# Where the kernels find elements

The kernels compute the offset of an element in three ways: from its number, from its coordinates,
and from the number of its row. On a layout whose span a machine word can count, each of the three
leads to the sum of coordinate times step for some element of the layout, and every such sum lies in
the span, whatever the rank, whichever axes are not stepped over, and however long these are.
-/

namespace TensorDataflow

namespace OperandLayout

/-- Whether the layout spans the element at an offset. -/
def Spans (l : OperandLayout) (offset : Int) : Prop :=
  0 ≤ offset ∧ (offset + 1) * l.kind.size ≤ l.spanBytes

instance (l : OperandLayout) (offset : Int) : Decidable (l.Spans offset) :=
  inferInstanceAs (Decidable (_ ∧ _))

/-- The offset is that of an element. -/
def Element (l : OperandLayout) (offset : Int) : Prop :=
  ∃ coordinates, Within l.shape coordinates ∧ l.offsetAt coordinates = offset

/-- An accepted layout of elements of more than one byte, whose span a machine word can count. -/
structure Bounded (l : OperandLayout) : Prop where
  rank : l.shape.length = l.strides.length
  steps : ∀ step ∈ l.strides, 0 ≤ step
  wide : 1 < l.kind.size
  span : l.spanBytes < Address.limit

theorem spanBytes_of_within {l : OperandLayout} {coordinates : List Nat}
    (hwithin : Within l.shape coordinates) : l.spanBytes = (l.lastOffset + 1) * l.kind.size := by
  rw [spanBytes, if_neg]
  intro hzero
  exact absurd (hwithin.pos 0 (List.contains_iff_mem.1 hzero)) (Nat.lt_irrefl 0)

theorem le_reach {axes : List (Nat × Int)} {axis : Nat × Int} (h : axis ∈ axes) :
    (axis.1 - 1) * axis.2.natAbs ≤ reach axes :=
  List.le_sum_of_mem (List.mem_map_of_mem h)

theorem sum_weighted_bounds {shape coordinates : List Nat} (h : Within shape coordinates)
    {strides : List Int} (hsteps : ∀ step ∈ strides, 0 ≤ step) :
    0 ≤ (weighted coordinates strides).sum ∧
    (weighted coordinates strides).sum ≤ reach (shape.zip strides) := by
  induction h generalizing strides with
  | nil => exact ⟨Int.le_refl 0, Int.natCast_nonneg _⟩
  | @cons c extent coordinates shape hc _ ih =>
      cases strides with
      | nil => exact ⟨Int.le_refl 0, Int.natCast_nonneg _⟩
      | cons step strides =>
          rw [List.forall_mem_cons] at hsteps
          have hrest := ih hsteps.2
          have hfirst : (c : Int) * step ≤ ((extent - 1) * step.natAbs : Nat) := by
            rw [Nat.cast_mul, Int.natAbs_of_nonneg hsteps.1]
            exact Int.mul_le_mul_of_nonneg_right (by omega) hsteps.1
          have hnonneg : 0 ≤ (c : Int) * step := Int.mul_nonneg (Int.natCast_nonneg c) hsteps.1
          rw [weighted_cons, List.sum_cons, List.zip_cons_cons, reach_cons]
          omega

/-- A layout that keeps its elements apart reaches at least as far as it has elements. -/
theorem Distinct.count_le {l : OperandLayout} (h : l.Distinct)
    (hsteps : ∀ step ∈ l.strides, 0 ≤ step) : l.count ≤ l.lastOffset + 1 := by
  have hspot : ∀ i : Fin l.count, ∃ coordinates, Within l.shape coordinates ∧
      numberOf l.shape coordinates = i := fun i => exists_numberOf i.isLt
  choose coordinates hwithin hnumber using hspot
  have hbounds : ∀ i, 0 ≤ l.offsetAt (coordinates i) ∧ l.offsetAt (coordinates i) ≤ l.lastOffset :=
    fun i => sum_weighted_bounds (hwithin i) hsteps
  let spot : Fin l.count → Fin (l.lastOffset + 1) :=
    fun i => ⟨(l.offsetAt (coordinates i)).toNat, by have := hbounds i; omega⟩
  have hinjective : Function.Injective spot := by
    intro i i' hsame
    have hoffset : l.offsetAt (coordinates i) = l.offsetAt (coordinates i') := by
      have hnat : (l.offsetAt (coordinates i)).toNat = (l.offsetAt (coordinates i')).toNat :=
        congrArg Fin.val hsame
      have hi := hbounds i
      have hi' := hbounds i'
      omega
    apply Fin.ext
    rw [← hnumber i, ← hnumber i', h _ _ (hwithin i) (hwithin i') hoffset]
  simpa using Fintype.card_le_of_injective spot hinjective

/-- If it has an element and memory has room for all that it spans, its extents are neither empty
nor too long for a signed word. -/
theorem Distinct.extents {l : OperandLayout} (h : l.Distinct)
    (hsteps : ∀ step ∈ l.strides, 0 ≤ step) (hwide : 1 < l.kind.size)
    (hspan : l.spanBytes < Address.limit) {coordinates : List Nat}
    (hwithin : Within l.shape coordinates) :
    ∀ extent ∈ l.shape, 0 < extent ∧ extent < 0x8000000000000000 := by
  intro extent hextent
  refine ⟨hwithin.pos extent hextent, ?_⟩
  have hcount := h.count_le hsteps
  have hpos : 0 < l.count := Nat.zero_lt_of_lt (numberOf_lt hwithin)
  have hle : extent ≤ l.count := by
    apply Nat.le_of_dvd hpos
    rw [count, elementTotal_eq_prod_reverse]
    exact List.dvd_prod (List.mem_reverse.2 hextent)
  rw [spanBytes_of_within hwithin, Address.limit] at hspan
  have hwords : (l.lastOffset + 1) * 2 ≤ (l.lastOffset + 1) * l.kind.size :=
    Nat.mul_le_mul_left _ hwide
  omega

namespace Bounded

variable {l : OperandLayout} (h : l.Bounded)

include h

theorem spans_of_element {offset : Int} (helement : l.Element offset) : l.Spans offset := by
  obtain ⟨coordinates, hwithin, rfl⟩ := helement
  have hbounds : 0 ≤ l.offsetAt coordinates ∧ l.offsetAt coordinates ≤ l.lastOffset :=
    sum_weighted_bounds hwithin h.steps
  refine ⟨hbounds.1, ?_⟩
  rw [spanBytes_of_within hwithin, Nat.cast_mul]
  apply Int.mul_le_mul_of_nonneg_right
  · push_cast
    omega
  · exact Int.natCast_nonneg _

/-- An axis with a step cannot be too long for a signed word, or the span would be too long for a
machine word. -/
theorem addressable {coordinates : List Nat} (hwithin : Within l.shape coordinates) :
    l.Addressable := by
  refine ⟨h.rank, fun axis haxis => ?_⟩
  by_cases hstep : axis.2 = 0
  · exact .inr hstep
  · have hreach := le_reach haxis
    rw [← lastOffset_eq] at hreach
    have hone : axis.1 - 1 ≤ (axis.1 - 1) * axis.2.natAbs :=
      Nat.le_mul_of_pos_right _ (Int.natAbs_pos.2 hstep)
    have hspan := h.span
    rw [spanBytes_of_within hwithin, Address.limit] at hspan
    have hwide : (l.lastOffset + 1) * 2 ≤ (l.lastOffset + 1) * l.kind.size :=
      Nat.mul_le_mul_left _ h.wide
    exact .inl (by omega)

/-! ### The three ways -/

theorem element_linearOffset {index : Nat} (hindex : index < l.count) :
    l.Element (linearOffset index l.shape l.strides) := by
  obtain ⟨coordinates, hwithin, rfl⟩ := exists_numberOf hindex
  exact ⟨coordinates, hwithin, ((h.addressable hwithin).linearOffset_numberOf hwithin).symm⟩

end Bounded

end OperandLayout

namespace Operand

open OperandLayout

/-- Where a signed word holds every coordinate that is scaled, coordinates lead where they are. -/
theorem coordinateOffset_eq_offsetAt {o : Operand} {coordinates : List Nat}
    (h : ∀ pair ∈ coordinates.zip o.layout.strides, signedWord pair.1 * pair.2 = pair.1 * pair.2) :
    o.coordinateOffset coordinates = o.layout.offsetAt coordinates := by
  rw [coordinateOffset, offsetAt]
  generalize o.layout.strides = strides at h
  induction coordinates generalizing strides with
  | nil => rfl
  | cons c coordinates ih =>
      cases strides with
      | nil => rfl
      | cons step strides =>
          rw [List.zip_cons_cons, List.forall_mem_cons] at h
          rw [List.zip_cons_cons, List.map_cons, List.foldr_cons, ih strides h.2, weighted_cons,
            List.sum_cons, ← h.1]

theorem coordinateOffset_of_lt {o : Operand} {coordinates : List Nat}
    (h : ∀ c ∈ coordinates, c < 0x8000000000000000) :
    o.coordinateOffset coordinates = o.layout.offsetAt coordinates := by
  refine coordinateOffset_eq_offsetAt fun pair hpair => ?_
  rw [signedWord_of_lt (h pair.1 (List.of_mem_zip hpair).1)]

theorem signedWord_mul_of_within {shape coordinates : List Nat} (h : Within shape coordinates)
    {strides : List Int} (hscalable : ∀ axis ∈ shape.zip strides, Scalable axis) :
    ∀ pair ∈ coordinates.zip strides, signedWord pair.1 * pair.2 = pair.1 * pair.2 := by
  induction h generalizing strides with
  | nil => exact fun _ hpair => absurd hpair List.not_mem_nil
  | cons hc _ ih =>
      cases strides with
      | nil => exact fun _ hpair => absurd hpair List.not_mem_nil
      | cons step strides =>
          rw [List.zip_cons_cons, List.forall_mem_cons] at hscalable
          rw [List.zip_cons_cons, List.forall_mem_cons]
          exact ⟨signedWord_mul hc hscalable.1, ih hscalable.2⟩

theorem coordinateOffset_of_within {o : Operand} (h : o.layout.Addressable) {coordinates : List Nat}
    (hwithin : Within o.layout.shape coordinates) :
    o.coordinateOffset coordinates = o.layout.offsetAt coordinates :=
  coordinateOffset_eq_offsetAt (signedWord_mul_of_within hwithin h.scalable)

theorem element_coordinateOffset {o : Operand} (h : o.layout.Bounded)
    {coordinates : List Nat} (hwithin : Within o.layout.shape coordinates) :
    o.layout.Element (o.coordinateOffset coordinates) :=
  ⟨coordinates, hwithin, (coordinateOffset_of_within (h.addressable hwithin) hwithin).symm⟩

/-- A batch that is not stepped over can be asked for any of its matrices. -/
theorem element_batched {o : Operand} (h : o.layout.Bounded) {batches rows cols : Nat}
    (hbatched : o.layout.Batched batches rows cols) {batch i j : Nat}
    (hbatch : batch < batches ∨ batches = 1) (hi : i < rows) (hj : j < cols) :
    o.layout.Element (o.coordinateOffset [batch, i, j]) := by
  have hwithin : ∀ l < batches, Within o.layout.shape [l, i, j] := by
    intro l hl
    rw [hbatched.shape]
    exact .cons hl (.cons hi (.cons hj .nil))
  rcases hbatch with hlt | hone
  · exact element_coordinateOffset h (hwithin batch hlt)
  · obtain ⟨step, rowStep, colStep, hstrides, hzero⟩ := hbatched.strides
    have hfirst : o.coordinateOffset [batch, i, j] = o.coordinateOffset [0, i, j] := by
      simp [coordinateOffset, hstrides, hzero hone]
    rw [hfirst]
    exact element_coordinateOffset h (hwithin 0 (hone ▸ Nat.one_pos))

/-- From the first element of a row, as many steps along the last axis as the coordinate says lead
to the element of the row with that coordinate. -/
theorem offset_row {o : Operand} (h : o.layout.Addressable) {outer : List Nat}
    {last : Nat} (hshape : o.layout.shape = outer ++ [last]) {coordinates : List Nat}
    (hcoordinates : Within outer coordinates)
    {j : Nat} (hj : j < last) : o.offset (numberOf outer coordinates * last) +
      signedWord j * o.lastStep = o.layout.offsetAt (coordinates ++ [j]) := by
  have hfirst : Within o.layout.shape (coordinates ++ [0]) := by
    rw [hshape]
    exact List.rel_append hcoordinates (.cons (Nat.zero_lt_of_lt hj) .nil)
  have hnumber : numberOf outer coordinates *
      last = numberOf o.layout.shape (coordinates ++ [0]) := by
    rw [hshape, numberOf_concat, Nat.zero_add, Nat.mul_comm]
  have hrank := h.rank
  rw [hshape, List.length_append, List.length_singleton] at hrank
  obtain ⟨steps, step, hsteps⟩ : ∃ steps step, o.layout.strides = steps ++ [step] := by
    refine ⟨o.layout.strides.dropLast,
      o.layout.strides.getLast (List.ne_nil_of_length_pos (by omega)), ?_⟩
    rw [List.dropLast_append_getLast]
  rw [hsteps, List.length_append, List.length_singleton, Nat.add_right_cancel_iff] at hrank
  have hoffsetAt : ∀ c : Nat,
      o.layout.offsetAt (coordinates ++ [c]) = (weighted coordinates steps).sum + c * step := by
    intro c
    rw [offsetAt, hsteps, weighted_append (hcoordinates.length_eq.trans hrank), List.sum_append,
      weighted_cons, List.sum_cons]
    simp [weighted]
  have hscalable : Scalable (last, step) := by
    apply h.scalable
    rw [hshape, hsteps, List.zip_append hrank]
    exact List.mem_append_right _ (List.mem_singleton.2 rfl)
  rw [offset, hnumber, h.linearOffset_numberOf hfirst, hoffsetAt, hoffsetAt, lastStep, hsteps,
    List.getLastD_concat, signedWord_mul hj hscalable, Nat.cast_zero, Int.zero_mul, Int.add_zero]

theorem element_row {o : Operand} (h : o.layout.Bounded) {last : Nat}
    (hlast : o.layout.shape.getLast? = some last) {row j : Nat} (hrow : row < o.layout.count / last)
    (hj : j < last) :
    o.layout.Element (o.offset (row * last) + signedWord j * o.lastStep) := by
  obtain ⟨outer, houter⟩ := List.getLast?_eq_some_iff.1 hlast
  rw [count, houter, elementTotal_concat, Nat.mul_div_cancel_left _ (Nat.zero_lt_of_lt hj)] at hrow
  obtain ⟨coordinates, hcoordinates, rfl⟩ := exists_numberOf hrow
  have hwithin : Within o.layout.shape (coordinates ++ [j]) := by
    rw [houter]
    exact List.rel_append hcoordinates (.cons hj .nil)
  exact ⟨coordinates ++ [j], hwithin,
    (offset_row (h.addressable hwithin) houter hcoordinates hj).symm⟩

/-- As many steps along the only axis of a row of weights as the coordinate says lead to the weight
with that coordinate. -/
theorem offset_weight {o : Operand} (h : o.layout.Addressable) {last : Nat}
    (hshape : o.layout.shape = [last]) {j : Nat} (hj : j < last) :
    signedWord j * o.lastStep = o.layout.offsetAt [j] := by
  have hrow := @offset_row o h [] last hshape [] .nil j hj
  have hstart : o.offset (numberOf [] [] * last) = 0 := by
    rw [show numberOf [] [] = 0 from rfl, Nat.zero_mul]
    exact linearOffset_zero _ _
  rwa [hstart, Int.zero_add] at hrow

theorem element_weight {o : Operand} (h : o.layout.Bounded) {last : Nat}
    (hshape : o.layout.shape = [last]) {j : Nat} (hj : j < last) :
    o.layout.Element (signedWord j * o.lastStep) := by
  have hwithin : Within o.layout.shape [j] := by
    rw [hshape]
    exact .cons hj .nil
  exact ⟨[j], hwithin, (offset_weight (h.addressable hwithin) hshape hj).symm⟩

/-- The bytes of all elements. -/
def elements (o : Operand) (width : Nat) : Set Nat :=
  {a | ∃ coordinates, Within o.layout.shape coordinates ∧ a ∈ o.bytesAt width coordinates}

theorem span_element_subset {o : Operand} {offset : Int} (h : o.layout.Element offset)
    (width : Nat) : span (o.address width offset) width ⊆ o.elements width := by
  obtain ⟨coordinates, hwithin, rfl⟩ := h
  exact fun a ha => ⟨coordinates, hwithin, ha⟩

end Operand

end TensorDataflow
