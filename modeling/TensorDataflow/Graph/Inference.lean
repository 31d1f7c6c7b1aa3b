import TensorDataflow.Graph.Basic
/-!
# Shapes of a whole graph

One pass over the operators sets the shapes of their outputs from the shapes of their inputs, and
`resolve` binds variables before it. Both keep the changes they have made when they fail.
-/

namespace TensorDataflow

namespace Graph

/-- Gives an output the inferred shape and says whether that is a change. -/
def setInferred (id : TensorId) (shape : Shape) : Act Graph GraphError Bool := do
  let g ← get
  let t ← Act.ofExcept (g.tensor id)
  if t.shape = shape then return false
  else
    set (g.modifyTensor id fun t => t.setShape shape)
    return true

/-- Infers the outputs of one operator and gives those that changed. -/
def inferOperator (op : Operator) : Act Graph GraphError (List TensorId) := do
  let g ← get
  let shapes ← Act.ofExcept (do op.kind.inferShapes (← g.tensorsOf op.inputs))
  let count := op.outputs.length
  if shapes.length ≠ count then throw (.arity op.type .inferredShapes count count shapes.length)
  let changes ← (op.outputs.zip shapes).mapM
      fun (id, shape) => do return (id, ← setInferred id shape)
  return (changes.filter Prod.snd).map Prod.fst

/-- Infers all output shapes in operator order and gives the tensors whose shape changed; strides
stay. -/
def shapeInfer : Act Graph GraphError (List TensorId) := do
  let changed ← (← get).ops.mapM inferOperator
  return changed.flatten

/-- Substitutes into the tensors one after the other, up to the first that cannot take it. -/
def substituteFrom (bindings : Bindings) : List Tensor → Except GraphError Unit × List Tensor
  | [] => (.ok (), [])
  | t :: rest =>
      match t.substitute bindings with
      | .ok t =>
          let (result, rest) := substituteFrom bindings rest
          (result, t :: rest)
      | .error e => (.error e, t :: rest)

def substituteAll (bindings : Bindings) : Act Graph GraphError Unit := fun g =>
  let (result, tensors) := substituteFrom bindings g.tensors
  (result, { g with tensors })

/-- Binds variables everywhere, infers again, and lays changed outputs out row by row. -/
def resolve (bindings : Bindings) : Act Graph GraphError (List TensorId) := do
  substituteAll bindings
  let changed ← shapeInfer
  modify fun g => changed.foldl (fun g id => g.modifyTensor id Tensor.resetStride) g
  return changed

end Graph

end TensorDataflow
