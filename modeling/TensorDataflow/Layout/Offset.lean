import TensorDataflow.Dim.Axes
/-!
# Strides and element offsets

The contiguous stride of a shape steps over the product of all later extents, written as a
left-nested product that starts at one and takes the extents from the last axis on; it is folded
only when the whole shape is constant. `linearOffset` turns the number of an element in row-major
order into its position under any stride.
-/

namespace TensorDataflow

namespace Axes

/-- The product of the given extents and, for each, the product of those behind it. -/
def suffixProducts : List Dim → Dim × List Dim
  | [] => (.const 1, [])
  | d :: rest =>
      let (running, steps) := suffixProducts rest
      (.node .mul running d, running :: steps)

/-- Row-major strides. -/
def contiguous (shape : Shape) : Stride :=
  let stride : Stride := ⟨(suffixProducts shape.dims).2⟩
  if shape.isConcrete then stride.simplify else stride

end Axes

/-- How many elements extents span. -/
def elementTotal (shape : List Nat) : Nat := shape.foldr (· * ·) 1

/-- A coordinate as a signed word, so that a step of either sign can scale it: from half the word on
it is negative. -/
def signedWord (n : Nat) : Int := (Int64.ofNat n).toInt

/-- Below half the word a coordinate keeps its value. -/
theorem signedWord_of_lt {n : Nat} (h : n < 0x8000000000000000) : signedWord n = n :=
  Int64.toInt_ofNat_of_lt h

/-- Splits what remains of an element number by each extent in turn and sums coordinate times step;
an empty axis puts every element at zero. -/
def offsetFrom (remaining : Nat) (offset : Int) : List (Nat × Int) → Int
  | [] => offset
  | (extent, step) :: rest =>
      if extent = 0 then 0
      else offsetFrom (remaining / extent) (offset + signedWord (remaining % extent) * step) rest

/-- The position of an element, given by its row-major number, under a stride: the axes are taken
from last to first. -/
def linearOffset (index : Nat) (shape : List Nat) (stride : List Int) : Int :=
  offsetFrom index 0 (shape.zip stride).reverse

end TensorDataflow
