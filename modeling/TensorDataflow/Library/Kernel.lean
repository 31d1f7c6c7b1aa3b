import TensorDataflow.Device.Memory
import TensorDataflow.Element.Render
import TensorDataflow.Library.Layout
import TensorDataflow.Library.Scalar
/-!
# Compute loops

Element-wise operations, batched matrix products and row normalisation on operands in memory. Every
element is read and written one at a time at the address that its operand's layout gives, in a fixed
order, so the loops also have a definite result where operands overlap.
-/

namespace TensorDataflow

/-- The word of `width` bytes at an address. -/
def Memory.load (m : Memory) (width address : Nat) : Word width :=
  BitVec.ofNatLT (ofBytes (m.read address width)) (by
    have h := ofBytes_lt (m.read address width)
    rwa [Memory.length_read] at h)

def Memory.store {width : Nat} (m : Memory) (address : Nat) (w : Word width) : Memory :=
  m.write address (toBytes width w.toNat)

/-- An operand in memory. -/
structure Operand where
  base : Address
  layout : OperandLayout

namespace Operand

/-- The address of the element at an offset, counted in elements of `width` bytes. -/
def address (o : Operand) (width : Nat) (offset : Int) : Nat := (o.base.val + offset * width).toNat

/-- The offset of the element with the given row-major number. -/
def offset (o : Operand) (index : Nat) : Int := linearOffset index o.layout.shape o.layout.strides

/-- The offset of an element by its coordinates. -/
def coordinateOffset (o : Operand) (coordinates : List Nat) : Int :=
  ((coordinates.zip o.layout.strides).map fun (c, step) => signedWord c * step).foldr (· + ·) 0

/-- The step along the last axis. -/
def lastStep (o : Operand) : Int := o.layout.strides.getLastD 0

end Operand

/-- Runs a step for each number below `count`, in ascending order. -/
def Memory.forEach (m : Memory) (count : Nat) (step : Memory → Nat → Memory) : Memory :=
  (List.range count).foldl step m

namespace Kernel

variable {width : Nat}

/-- Sets each element of `y` to `f` of the elements of `a` and `b` with the same number. -/
def elementwise (f : Word width → Word width → Word width) (y a b : Operand)
    (m : Memory) : Memory :=
  m.forEach y.layout.count fun m i =>
    m.store (y.address width (y.offset i))
      (f (m.load width (a.address width (a.offset i)))
        (m.load width (b.address width (b.offset i))))

/-- One row of a product: the accumulators are cleared, take the products of the row of `a` with the
rows of `b`, and are then scaled into the row of `y`. -/
def gemmRow (s : Arithmetic width) (y a b : Operand) (alpha beta : Word width) (accumulators : Nat)
    (n k batch i : Nat) (m : Memory) : Memory :=
  let slot (j : Nat) : Nat := accumulators + j * width
  let m := m.forEach n fun m j => m.store (slot j) s.zero
  let m := m.forEach k fun m p =>
    let left := m.load width (a.address width (a.coordinateOffset [batch, i, p]))
    m.forEach n fun m j =>
      let right := m.load width (b.address width (b.coordinateOffset [batch, p, j]))
      m.store (slot j) (s.add (m.load width (slot j)) (s.mul left right))
  m.forEach n fun m j =>
    let target := y.address width (y.coordinateOffset [batch, i, j])
    let product := s.mul alpha (m.load width (slot j))
    m.store target (if s.isZero beta then product
        else s.add product (s.mul beta (m.load width target)))

/-- `y := alpha * a * b + beta * y` for each matrix of a batch; the accumulators hold one row of
`y`. If `y` has no elements nothing is visited, however many empty rows there are. -/
def gemm (s : Arithmetic width) (y a b : Operand) (alpha beta : Word width) (accumulators : Nat)
    (m : Memory) : Memory :=
  match y.layout.shape, a.layout.shape with
  | [batches, rows, n], [_, _, k] =>
      if y.layout.count = 0 then m
      else m.forEach batches fun m batch => m.forEach rows fun m i =>
        gemmRow s y a b alpha beta accumulators n k batch i m
  | _, _ => m

/-- One row of a normalisation: each element divided by the root of the mean square of its row,
times its weight. -/
def rmsRow (s : Arithmetic width) (y x w : Operand) (epsilon : Word width) (last row : Nat)
    (m : Memory) : Memory :=
  let xStart := x.offset (row * last)
  let yStart := y.offset (row * last)
  let element (m : Memory) (j : Nat) : Word width :=
    m.load width (x.address width (xStart + signedWord j * x.lastStep))
  let squares :=
    (List.range last).foldl (fun sum j => s.add sum (s.mul (element m j) (element m j))) s.zero
  let scale := s.div s.one (s.sqrt (s.add (s.div squares (s.ofCount last)) epsilon))
  m.forEach last fun m j =>
    m.store (y.address width (yStart + signedWord j * y.lastStep))
      (s.mul (s.mul (element m j) scale)
        (m.load width (w.address width (signedWord j * w.lastStep))))

/-- Normalises the rows along the last axis of `x` into `y`. -/
def rmsNorm (s : Arithmetic width) (y x w : Operand) (epsilon : Word width) (m : Memory) : Memory :=
  match x.layout.shape.getLast? with
  | none | some 0 => m
  | some last => m.forEach (x.layout.count / last) fun m row => rmsRow s y x w epsilon last row m

end Kernel

end TensorDataflow
