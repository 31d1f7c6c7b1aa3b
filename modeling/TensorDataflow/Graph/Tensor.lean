import TensorDataflow.Device.Memory
import TensorDataflow.Graph.Error
import TensorDataflow.Layout.Offset
import TensorDataflow.Library.Layout
/-!
# Tensors

A tensor has a symbolic layout, at most one buffer, the operator that produces it and the operators
that consume it, once for each input slot that holds it. Its buffer spans everything between the
lowest and the highest element that its stride reaches.
-/

namespace TensorDataflow

/-- A buffer that one tensor owns. -/
structure Buffer where
  address : Address
  size : Nat
  deriving DecidableEq, Repr

/-- A tensor of a graph. -/
structure Tensor where
  id : TensorId
  kind : ElementKind
  shape : Shape
  stride : Stride
  device : DeviceKind := .cpu
  data : Option Buffer := none
  source : Option OpId := none
  targets : List OpId := []
  deriving DecidableEq, Repr, Inhabited

/-- The first constant extent, from an axis on, that is not positive. -/
def Axes.badExtent? (axis : Nat) : List Dim → Option (Nat × Int64)
  | [] => none
  | d :: rest =>
      match d.constant? with
      | some v => if v ≤ 0 then some (axis, v) else badExtent? (axis + 1) rest
      | none => badExtent? (axis + 1) rest

namespace Tensor

/-- A layout needs one step per axis and positive extents as far as they are constants. -/
def checkLayout (shape : Shape) (stride : Stride) : Except GraphError Unit :=
  if shape.rank ≠ stride.rank then .error (.rankMismatch shape stride)
  else match Axes.badExtent? 0 shape.dims with
    | some (axis, value) => .error (.invalidDimension axis value shape)
    | none => .ok ()

/-- A tensor without data and links, row-major unless a stride is given. -/
def make (id : TensorId) (shape : Shape) (stride : Option Stride) (kind : ElementKind) :
    Except GraphError Tensor := do
  let stride := stride.getD shape.contiguous
  checkLayout shape stride
  return { id, kind, shape, stride }

def rank (t : Tensor) : Nat := t.shape.rank

def isConcrete (t : Tensor) : Bool := t.shape.isConcrete && t.stride.isConcrete

/-! ### Changing the layout -/

/-- Overwrites the shape and leaves the stride as it is. -/
def setShape (t : Tensor) (shape : Shape) : Tensor := { t with shape }

def setStride (t : Tensor) (stride : Stride) : Except GraphError Tensor := do
  checkLayout t.shape stride
  return { t with stride }

def resetStride (t : Tensor) : Tensor := { t with stride := t.shape.contiguous }

/-- Substitutes into shape and stride. -/
def substitute (t : Tensor) (bindings : Bindings) : Except GraphError Tensor := do
  let shape := t.shape.substitute bindings
  let stride := t.stride.substitute bindings
  checkLayout shape stride
  return { t with shape, stride }

/-! ### Sizes -/

def concreteShape (t : Tensor) : Except GraphError (List Nat) :=
  match t.shape.values? with
  | some vs => .ok vs
  | none => .error (.notConcrete t.id .extent t.shape.text)

def concreteStride (t : Tensor) : Except GraphError (List Int) :=
  match t.stride.values? with
  | some vs => .ok vs
  | none => .error (.notConcrete t.id .step t.stride.text)

def elementCount (t : Tensor) : Except GraphError Nat := do return elementTotal (← t.concreteShape)

/-- The number of elements from the lowest to the highest offset that a layout reaches. -/
def extentOf (shape : List Nat) (stride : List Int) : Nat :=
  if shape.contains 0 then 0
  else
    let spans := (shape.zip stride).map fun (extent, step) => ((extent : Int) - 1) * step
    let high := (spans.filter (0 ≤ ·)).foldr (· + ·) 0
    let low := (spans.filter (· < 0)).foldr (· + ·) 0
    (high - low + 1).toNat

def storageSize (t : Tensor) : Except GraphError Nat :=
  do return extentOf (← t.concreteShape) (← t.concreteStride)

/-- The storage in bytes. -/
def totalBytes (t : Tensor) : Except GraphError Nat := do return (← t.storageSize) * t.kind.size

/-- The concrete layout as the operator library takes it. -/
def layout (t : Tensor) : Except GraphError OperandLayout :=
  do return ⟨← t.concreteShape, ← t.concreteStride, t.kind⟩

/-! ### Text -/

def idsText (ids : List Nat) : String := "[" ++ ", ".intercalate (ids.map toString) ++ "]"

/-- The tensor on one line; where its buffer lies is not told. -/
def text (t : Tensor) : String :=
  let source := match t.source with | some op => toString op | none => "None"
  s!"Tensor {t.id}, dtype " ++ t.kind.label ++ ", shape " ++ t.shape.text ++ ", stride " ++
    t.stride.text ++ ", device " ++ t.device.label
    ++ ", source " ++ source ++ ", targets " ++ idsText t.targets ++
      (if t.data.isSome then ", data PTR" else "")

end Tensor

end TensorDataflow
