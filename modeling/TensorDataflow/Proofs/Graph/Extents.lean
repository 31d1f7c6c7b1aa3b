import TensorDataflow.Proofs.Graph.Storage
import TensorDataflow.Proofs.Layout.RowMajor
/-!
# How much storage a tensor needs

A tensor with constant extents and steps needs one place for every offset from the lowest to the
highest that its elements have, and each element has the offset that its coordinates give it,
whatever signs the steps have: `Tensor.storage_exact`. With the contiguous stride each element lies
at its row-major number, and the storage is as large as the count.
-/

namespace TensorDataflow

theorem Axes.evaluate_of_values? {role : AxisRole} {axes : Axes role} {vs : List role.Value}
    (h : axes.values? = some vs) (bindings : Bindings) : axes.evaluate bindings = some vs := by
  refine mapM_eq_some_iff.2 ((Axes.values?_eq_some_iff.1 h).imp fun d v hstands => ?_)
  obtain ⟨word, hword, hvalue⟩ := Option.bind_eq_some_iff.1 hstands
  cases d with
  | const w =>
      obtain rfl : w = word := Option.some.inj hword
      exact hvalue
  | var name => cases hword
  | node op lhs rhs => cases hword

namespace Tensor

variable {t : Tensor} {l : OperandLayout}

theorem elementCount_of_layout (h : t.layout = .ok l) : t.elementCount = .ok l.count := by
  rw [elementCount, concreteShape_eq_ok_iff.2 (layout_eq_ok_iff.1 h).1]
  rfl

theorem storageSize_of_layout (h : t.layout = .ok l) :
    t.storageSize = .ok (extentOf l.shape l.strides) := by
  obtain ⟨hshape, hstride, -⟩ := layout_eq_ok_iff.1 h
  rw [storageSize, concreteShape_eq_ok_iff.2 hshape, concreteStride_eq_ok_iff.2 hstride]
  rfl

theorem strides_of_contiguous (h : t.layout = .ok l) (hstride : t.stride = t.shape.contiguous) :
    l.strides = wordSteps l.shape := by
  obtain ⟨hshape, hsteps, -⟩ := layout_eq_ok_iff.1 h
  have hcontiguous := Axes.evaluate_contiguous (Axes.evaluate_of_values? hshape .empty)
  rw [← hstride, Axes.evaluate_of_values? hsteps .empty] at hcontiguous
  exact Option.some.inj hcontiguous

/-- Under the contiguous stride elements lie at their numbers, one after the other. -/
theorem contiguous_exact (h : t.layout = .ok l)
    (hpos : ∀ extent ∈ l.shape, 0 < extent) (hstride : t.stride = t.shape.contiguous)
    (hfits : extentOf l.shape l.strides < 0x8000000000000000) :
    extentOf l.shape l.strides = l.count ∧
    ∀ index < l.count, linearOffset index l.shape l.strides = index := by
  have hextent := OperandLayout.extentOf_eq hpos l.strides
  rw [strides_of_contiguous h hstride] at hextent hfits ⊢
  obtain ⟨hsteps, hlow, hhigh⟩ := OperandLayout.wordSteps_of_fits hpos (by omega)
  constructor
  · rw [OperandLayout.count]
    omega
  · intro index hindex
    rw [hsteps]
    exact OperandLayout.linearOffset_rowSteps (sized_of_layout h hpos) hindex

/-- The storage of a tensor is exact. Its elements have one number each below the count, and the
offset found for the number is the sum of coordinate times step; the storage has as many places as
there are offsets from the lowest of these sums to the highest. -/
theorem storage_exact (hlayout : t.layout = .ok l) (hpos : ∀ extent ∈ l.shape, 0 < extent) :
    ∃ size, t.elementCount = .ok l.count ∧ t.storageSize = .ok size ∧
      Set.BijOn l.numberAt {coordinates | Within l.shape coordinates} (Set.Iio l.count) ∧
      (∀ coordinates, Within l.shape coordinates →
        linearOffset (l.numberAt coordinates) l.shape l.strides = l.offsetAt coordinates) ∧
      l.offsets = l.offsetAt '' {coordinates | Within l.shape coordinates} ∧
      (∃ low high, IsLeast l.offsets low ∧ IsGreatest l.offsets high ∧
        (size : Int) = high - low + 1) ∧
      (t.stride = t.shape.contiguous → size < 0x8000000000000000 →
        size = l.count ∧ ∀ index < l.count, linearOffset index l.shape l.strides = index) := by
  have hsized : l.Sized := sized_of_layout hlayout hpos
  refine ⟨extentOf l.shape l.strides, elementCount_of_layout hlayout, storageSize_of_layout hlayout,
    l.bijOn_numberAt, ?_, hsized.offsets_eq, ?_, ?_⟩
  · exact fun coordinates hwithin => hsized.linearOffset_numberAt hwithin
  · exact ⟨_, _, hsized.isLeast_lowest, hsized.isGreatest_highest,
      OperandLayout.extentOf_eq hpos l.strides⟩
  · exact fun hstride hfits => contiguous_exact hlayout hpos hstride hfits

/-- Two rows of three that are walked from the last row to the first, and the same rows one after
the other. -/
theorem storage_exact_rows :
    (∃ low high, IsLeast (OperandLayout.offsets ⟨[2, 3], [-3, 1], .f32⟩) low ∧
      IsGreatest (OperandLayout.offsets ⟨[2, 3], [-3, 1], .f32⟩) high ∧ high - low + 1 = 6) ∧
      ∀ index < 6, linearOffset index [2, 3] [3, 1] = index := by
  constructor
  · obtain ⟨size, -, hsize, -, -, -, ⟨low, high, hlow, hhigh, heq⟩, -⟩ :=
      @storage_exact (.ofWords [2, 3] [-3, 1]) ⟨[2, 3], [-3, 1], .f32⟩ rfl (by decide)
    obtain rfl : 6 = size := Except.ok.inj hsize
    exact ⟨low, high, hlow, hhigh, heq.symm⟩
  · obtain ⟨size, -, hsize, -, -, -, -, hcontiguous⟩ :=
      @storage_exact (.ofWords [2, 3] [3, 1]) ⟨[2, 3], [3, 1], .f32⟩ rfl (by decide)
    obtain rfl : 6 = size := Except.ok.inj hsize
    exact (hcontiguous (by decide) (by decide)).2

end Tensor

end TensorDataflow
