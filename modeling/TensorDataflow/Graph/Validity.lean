import TensorDataflow.Graph.Basic
/-!
# Checking a graph

A graph is valid when no number is used twice, every tensor is used, and all links between tensors
and operators, and between operators, exist and answer each other. The first flaw in the order of
the tensors and then of the operators is the one reported.
-/

namespace TensorDataflow

/-- The first number of a list that stands in it before, or among those already seen. -/
def firstRepeat? (seen : List Nat) : List Nat → Option Nat
  | [] => none
  | id :: rest => if seen.contains id then some id else firstRepeat? (id :: seen) rest

namespace Graph

/-- The first flaw in the links of a tensor. -/
def tensorFlaw? (g : Graph) (t : Tensor) : Option GraphFlaw :=
  if t.source.isNone && t.targets.isEmpty then some (.isolated t.id)
  else
    let sourceFlaw := t.source.bind fun source =>
      match g.operator? source with
      | none => some (.missingSource t.id source)
      | some op => if op.outputs.contains t.id then none else some (.notOutputOfSource t.id source)
    sourceFlaw.or <| t.targets.findSome? fun target =>
      match g.operator? target with
      | none => some (.missingTarget t.id target)
      | some op => if op.inputs.contains t.id then none else some (.notInputOfTarget t.id target)

/-- The first flaw in the links of an operator. -/
def operatorFlaw? (g : Graph) (op : Operator) : Option GraphFlaw :=
  let inputFlaw := op.inputs.findSome? fun input =>
    match g.tensor? input with
    | none => some (.missingInput op.id input)
    | some t => if t.targets.contains op.id then none else some (.inputWithoutTarget op.id input)
  let outputFlaw := op.outputs.findSome? fun output =>
    match g.tensor? output with
    | none => some (.missingOutput op.id output)
    | some t => if t.source = some op.id then none else some (.outputWithOtherSource op.id output)
  let predecessorFlaw := op.predecessors.findSome? fun pred =>
    match g.operator? pred with
    | none => some (.missingPredecessor op.id pred)
    | some p =>
        if p.successors.contains op.id then none else some (.predecessorWithoutSuccessor op.id pred)
  let successorFlaw := op.successors.findSome? fun succ =>
    match g.operator? succ with
    | none => some (.missingSuccessor op.id succ)
    | some s =>
        if s.predecessors.contains op.id then none
        else some (.successorWithoutPredecessor op.id succ)
  inputFlaw.or (outputFlaw.or (predecessorFlaw.or successorFlaw))

/-- The first flaw of the graph. -/
def flaw? (g : Graph) : Option GraphFlaw :=
  let tensorTwice := (firstRepeat? [] (g.tensors.map Tensor.id)).map GraphFlaw.tensorTwice
  let operatorTwice := (firstRepeat? [] (g.ops.map Operator.id)).map GraphFlaw.operatorTwice
  tensorTwice.or
    (operatorTwice.or ((g.tensors.findSome? g.tensorFlaw?).or (g.ops.findSome? g.operatorFlaw?)))

def checkValid (g : Graph) : Except GraphError Unit :=
  match g.flaw? with
  | none => .ok ()
  | some flaw => .error (.invalidGraph flaw)

/-- Fails at the first tensor whose layout is not constant. -/
def checkConcrete : List Tensor → Except GraphError Unit
  | [] => .ok ()
  | t :: rest => do
      let _ ← t.concreteShape
      let _ ← t.concreteStride
      checkConcrete rest

/-- Whether the graph can be run: valid, in dependency order, and with constant layouts. -/
def checkBeforeRun (g : Graph) : Except GraphError Unit := do
  g.checkValid
  if g.sorted then checkConcrete g.tensors else throw (.invalidGraph .unsorted)

end Graph

end TensorDataflow
