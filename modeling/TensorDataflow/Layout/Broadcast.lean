import TensorDataflow.Dim.Axes
/-!
# Broadcasting

Shapes are aligned at their last axis, and an axis that one of them lacks counts as the constant
one. Two aligned extents agree when they are the same tree or one of them is the constant one; the
first pair that does not agree, counted along the longer shape, is the one reported.
-/

namespace TensorDataflow

/-- The common extent of two aligned axes: the side that is not the constant one, the left side when
both are the same. -/
def Dim.agree? (a b : Dim) : Option Dim :=
  if a = b ∨ b.isOne then some a else if a.isOne then some b else none

namespace Axes

/-- Fills a list of dimensions up to the given rank with leading ones. -/
def alignTo (rank : Nat) (dims : List Dim) : List Dim :=
  List.replicate (rank - dims.length) (.const 1) ++ dims

/-- Joins aligned pairs of extents, or gives the number of the first pair without a common
extent. -/
def joinFrom (axis : Nat) : List (Dim × Dim) → Except Nat (List Dim)
  | [] => .ok []
  | (a, b) :: rest =>
      match a.agree? b with
      | none => .error axis
      | some d => (joinFrom (axis + 1) rest).map (d :: ·)

/-- The shape that two shapes broadcast to. -/
def broadcast (a b : Shape) : Except ShapeError Shape :=
  let rank := max a.rank b.rank
  match joinFrom 0 ((alignTo rank a.dims).zip (alignTo rank b.dims)) with
  | .ok dims => .ok ⟨dims⟩
  | .error axis => .error (.broadcastMismatch a.text b.text axis)

/-- The strides that read a tensor as if it had been expanded to at least `targetRank` axes: an axis
that it lacks, or whose extent is the constant one, is not stepped over. -/
def broadcastStride (shape : Shape) (stride : Stride) (targetRank : Nat) :
    Except ShapeError Stride :=
  if shape.rank = stride.rank then
    let steps :=
      (shape.dims.zip stride.dims).map fun (extent, step) => if extent.isOne then .const 0 else step
    .ok ⟨List.replicate (targetRank - shape.rank) (.const 0) ++ steps⟩
  else .error (.rankMismatch shape.rank stride.rank)

end Axes

end TensorDataflow
