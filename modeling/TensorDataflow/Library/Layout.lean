import TensorDataflow.Element.Kind
import TensorDataflow.Layout.Offset
/-!
# Operand layouts

What the operator library knows of a tensor: concrete extents, concrete steps and the kind of its
elements.
-/

namespace TensorDataflow

/-- The concrete layout of an operand. -/
structure OperandLayout where
  shape : List Nat
  strides : List Int
  kind : ElementKind
  deriving DecidableEq, Repr, Inhabited

namespace OperandLayout

def count (l : OperandLayout) : Nat := elementTotal l.shape

/-- The largest element offset under steps that are not negative. -/
def lastOffset (l : OperandLayout) : Nat :=
  ((l.shape.zip l.strides).map fun (extent, step) => (extent - 1) * step.natAbs).foldr (· + ·) 0

/-- The bytes from the base to the end of the furthest element. -/
def spanBytes (l : OperandLayout) : Nat :=
  if l.shape.contains 0 then 0 else (l.lastOffset + 1) * l.kind.size

/-- The layout as a batch of matrices: rank two counts as a batch of one, and a batch of one is not
stepped over. -/
def toBatched? (l : OperandLayout) : Option OperandLayout :=
  match l.shape, l.strides with
  | [rows, cols], strides => some { l with shape := [1, rows, cols], strides := 0 :: strides }
  | [batch, rows, cols], step :: strides =>
      some { l with
        shape := [batch, rows, cols]
        strides := (if batch = 1 then 0 else step) :: strides }
  | _, _ => none

/-- Exchanges the entry at a position with the one behind it, if both are there. -/
def exchangeAt {α : Type} : Nat → List α → List α
  | 0, a :: b :: rest => b :: a :: rest
  | i + 1, a :: rest => a :: exchangeAt i rest
  | _, xs => xs

@[simp] theorem length_exchangeAt {α : Type} (i : Nat) (xs : List α) :
    (exchangeAt i xs).length = xs.length := by
  fun_induction exchangeAt i xs <;> simp_all

/-- The layout with the last two axes of its shape exchanged, and the steps at the same positions
with them. -/
def transposed (l : OperandLayout) : OperandLayout :=
  if l.shape.length < 2 then l
  else
    let axis := l.shape.length - 2
    { l with shape := exchangeAt axis l.shape, strides := exchangeAt axis l.strides }

end OperandLayout

end TensorDataflow
