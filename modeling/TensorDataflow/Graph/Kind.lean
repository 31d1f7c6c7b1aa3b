import TensorDataflow.Decimal.Shortest
import TensorDataflow.Graph.Tensor
import TensorDataflow.Layout.Broadcast
import TensorDataflow.Library.Native
/-!
# Operator kinds

The kinds of operator a graph can hold, each with the shapes and element kinds of its outputs and
with the native operator and operand layouts that compute it: broadcasting element-wise operators,
batched matrix products with optional transposition and bias, normalisation along the last axis, and
kinds declared by their interface alone.
-/

namespace TensorDataflow

/-- The element-wise operators. -/
inductive Pointwise where
  | add | sub | mul
  deriving DecidableEq, Repr

def Pointwise.type : Pointwise → OpType
  | add => .add
  | sub => .sub
  | mul => .mul

/-- The element-wise operator of a type. -/
def Pointwise.ofType : OpType → Except GraphError Pointwise
  | .add => .ok .add
  | .sub => .ok .sub
  | .mul => .ok .mul
  | other => .error (.unsupportedOp other)

/-- The attributes of `alpha * op(A) * op(B) + beta * C`; the scalars are single-precision words. -/
structure Gemm where
  alpha : Word 4
  beta : Word 4
  transA : Bool
  transB : Bool
  deriving DecidableEq, Repr

/-- The single-precision one. -/
def singleOne : Word 4 := 0x3f800000#_

def Gemm.standard : Gemm := ⟨singleOne, singleOne, false, false⟩

/-- The single-precision word nearest to ten to the minus eight. -/
def standardEpsilon : Word 4 := 0x322bcc77#_

/-- A kind given by its interface: without shapes or element kinds of its own it takes those of its
first input. -/
structure DeclaredKind where
  type : OpType
  minInputs : Nat
  maxInputs : Nat
  outputCount : Nat
  native : NativeOp
  shapes : Option (List Shape)
  kinds : Option (List ElementKind)
  deriving DecidableEq, Repr

/-- What an operator computes. -/
inductive OpKind where
  | pointwise (f : Pointwise)
  | gemm (attributes : Gemm)
  | rmsNorm (epsilon : Word 4)
  | declared (kind : DeclaredKind)
  deriving DecidableEq, Repr

/-- The three extents of a matrix operand, after transposition. -/
structure MatrixView where
  batch : Dim
  rows : Dim
  cols : Dim

/-- The matrix view of a tensor of rank two, as a batch of one, or three. -/
def Tensor.matrixView (t : Tensor) (transposed : Bool) : Except GraphError MatrixView :=
  let orient (batch rows cols : Dim) : MatrixView :=
    if transposed then ⟨batch, cols, rows⟩ else ⟨batch, rows, cols⟩
  match t.shape.dims with
  | [rows, cols] => .ok (orient (.const 1) rows cols)
  | [batch, rows, cols] => .ok (orient batch rows cols)
  | dims => .error (.shapeMismatch .gemm (.operandRank t.id dims.length))

namespace OpKind

def type : OpKind → OpType
  | pointwise f => f.type
  | gemm _ => .gemm
  | rmsNorm _ => .rmsNorm
  | declared kind => kind.type

/-- The least and the greatest number of inputs. -/
def inputArity : OpKind → Nat × Nat
  | pointwise _ => (2, 2)
  | gemm _ => (2, 3)
  | rmsNorm _ => (2, 2)
  | declared kind => (kind.minInputs, kind.maxInputs)

def outputCount : OpKind → Nat
  | declared kind => kind.outputCount
  | _ => 1

/-- Fails unless a number lies in a range. -/
def checkArity (kind : OpKind) (part : ArityPart) (range : Nat × Nat) (actual : Nat) :
    Except GraphError Unit :=
  if range.1 ≤ actual ∧ actual ≤ range.2 then .ok ()
  else .error (.arity kind.type part range.1 range.2 actual)

/-! ### Inference -/

/-- The output shape of a product, checked against the bias if there is one. -/
def gemmShape (g : Gemm) (a b : Tensor) (bias : Option Tensor) : Except GraphError Shape := do
  let left ← a.matrixView g.transA
  let right ← b.matrixView g.transB
  let some batch :=
    left.batch.agree? right.batch | throw (.shapeMismatch .gemm (.batch left.batch right.batch))
  if left.cols ≠ right.rows then throw (.shapeMismatch .gemm (.contraction left.cols right.rows))
  let output : Shape := ⟨[batch, left.rows, right.cols]⟩
  match bias with
  | some c =>
      if c.shape = output then return output
      else throw (.shapeMismatch .gemm (.bias c.shape output))
  | none => return output

/-- A weight has one axis, the last of the input. -/
def rmsShape (x w : Tensor) : Except GraphError Shape :=
  match x.shape.dims.getLast?, w.shape.dims with
  | some last, [weight] =>
      if weight = last then .ok x.shape
      else .error (.shapeMismatch .rmsNorm (.weight w.shape x.shape))
  | _, _ => .error (.shapeMismatch .rmsNorm (.weight w.shape x.shape))

/-- The failure of a kind that is given too few inputs to infer from. -/
def tooFew {α : Type} (kind : OpKind) (inputs : List Tensor) : Except GraphError α :=
  .error (.arity kind.type .inputs kind.inputArity.1 kind.inputArity.2 inputs.length)

/-- The shapes of the outputs. -/
def inferShapes (kind : OpKind) (inputs : List Tensor) : Except GraphError (List Shape) :=
  match kind, inputs with
  | pointwise f, a :: b :: _ =>
      match a.shape.broadcast b.shape with
      | .ok s => .ok [s]
      | .error cause => .error (.shapeMismatch f.type (.broadcast cause))
  | gemm g, a :: b :: rest => do return [← gemmShape g a b rest.head?]
  | rmsNorm _, x :: w :: _ => do return [← rmsShape x w]
  | declared d, _ =>
      match d.shapes, inputs with
      | some shapes, _ => .ok shapes
      | none, first :: _ => .ok (List.replicate d.outputCount first.shape)
      | none, [] => .ok []
  | kind, inputs => tooFew kind inputs

/-- The element kinds of the outputs. -/
def inferKinds (kind : OpKind) (inputs : List Tensor) : Except GraphError (List ElementKind) :=
  match kind, inputs with
  | pointwise f, a :: b :: _ =>
      if a.kind = b.kind then .ok [a.kind] else .error (.kindMismatch f.type a.kind b.kind)
  | gemm _, a :: rest =>
      match rest.find? fun t => t.kind ≠ a.kind with
      | some t => .error (.kindMismatch .gemm a.kind t.kind)
      | none => .ok [a.kind]
  | rmsNorm _, x :: _ => .ok [x.kind]
  | declared d, _ =>
      match d.kinds, inputs with
      | some kinds, _ => .ok kinds
      | none, first :: _ => .ok (List.replicate d.outputCount first.kind)
      | none, [] => .ok []
  | kind, inputs => tooFew kind inputs

/-! ### The native side -/

def nativeOp : OpKind → NativeOp
  | pointwise .add => .add
  | pointwise .sub => .sub
  | pointwise .mul => .mul
  | gemm _ => .gemm
  | rmsNorm epsilon => .rmsNorm epsilon
  | declared kind => kind.native

/-- An input of an element-wise operator, read through the shape of the output. -/
def broadcastOperand (y : OperandLayout) (input : Tensor) : Except GraphError OperandLayout := do
  let stride ← (input.shape.broadcastStride input.stride y.shape.length).mapError .shape
  match stride.values? with
  | some strides => return ⟨y.shape, strides, input.kind⟩
  | none => throw (.notConcrete input.id .step stride.text)

def matrixOperand (t : Tensor) (transposed : Bool) : Except GraphError OperandLayout := do
  let l ← t.layout
  return if transposed then l.transposed else l

/-- The layouts of the native operands, outputs first; a bias is not among them. -/
def nativeOperands (kind : OpKind) (inputs outputs : List Tensor) :
    Except GraphError (List OperandLayout) :=
  match kind, inputs, outputs with
  | pointwise _, inputs, y :: _ => do
      let y ← y.layout
      return y :: (← inputs.mapM (broadcastOperand y))
  | gemm g, a :: b :: _, y :: _ =>
      do return [← y.layout, ← matrixOperand a g.transA, ← matrixOperand b g.transB]
  | rmsNorm _, x :: w :: _, y :: _ => do return [← y.layout, ← x.layout, ← w.layout]
  | declared _, inputs, outputs => (outputs ++ inputs).mapM Tensor.layout
  | kind, inputs, _ => tooFew kind inputs

/-- The attributes as they are written, nothing for a kind without any. -/
def attributesText : OpKind → String
  | gemm g =>
      let shown (w : Word 4) : String := FloatFormat.single.shortest w.toNat
      "alpha=" ++ shown g.alpha ++ ", beta=" ++ shown g.beta ++
        s!", transA={g.transA}, transB={g.transB}"
  | rmsNorm epsilon => "epsilon=" ++ FloatFormat.single.shortest epsilon.toNat
  | _ => ""

end OpKind

end TensorDataflow
