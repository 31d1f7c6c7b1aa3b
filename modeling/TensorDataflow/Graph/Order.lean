import TensorDataflow.Graph.Basic
import TensorDataflow.Graph.Thinning
/-!
# Dependency order

Operators are sorted by taking, again and again, one that waits for nothing and telling its
successors so. An operator waits once for each of its inputs that an operator of the graph produces.
An operator that waits for nothing any more is taken again whenever it is told once more; the order
of the graph is that of the first takings, but it is the number of takings that decides whether
there are enough of them.

The takings come in rounds: those that a round releases make up the next one. Where outputs are
shared the rounds can double in length each time, so every round is thinned, which changes nothing.
-/

namespace TensorDataflow

/-- Tells operators in turn, and gives those that then wait for nothing. -/
def tell (waiting : Tally) : List OpId → Tally × List OpId
  | [] => (waiting, [])
  | s :: rest =>
      let left := waiting.count s - 1
      let (waiting, ready) := tell (waiting.put s left) rest
      (waiting, if left = 0 then s :: ready else ready)

namespace Graph

/-- How many of an operator's inputs are produced by operators of the graph. -/
def inDegree (g : Graph) (op : Operator) : Nat :=
  op.inputs.countP fun id => ((g.tensor? id).bind Tensor.source).any fun source =>
    (g.operator? source).isSome

/-- How often each operator has to be told. -/
def waiting (g : Graph) : Tally :=
  g.ops.foldr (fun op waiting => waiting.put op.id (g.inDegree op)) ∅

/-- The successors in the graph that an operator tells. -/
def informed (g : Graph) (id : OpId) : List OpId :=
  ((g.operator? id).elim [] Operator.successors).filter fun s => (g.operator? s).isSome

/-- The operators in the order in which they are taken, if a round is empty after at most `rounds`
of them; what a round releases is trimmed before it is taken. -/
def takings (g : Graph) (trim : Nat → List OpId → List OpId) :
    (rounds : Nat) → (queue : List OpId) → Tally → Option (List OpId)
  | _, [], _ => some []
  | 0, _ :: _, _ => none
  | rounds + 1, queue, waiting =>
      let (waiting, ready) := tell waiting (queue.flatMap g.informed)
      (g.takings trim rounds (trim rounds ready) waiting).map (queue ++ ·)

/-- The takings of a graph from the start. There are no more rounds than operators, unless they
never end: a chain of operators that release each other and ends names no operator twice. -/
def takingOrder? (g : Graph) (trim : Nat → List OpId → List OpId) : Option (List OpId) :=
  let ready := (g.ops.filter fun op => g.inDegree op = 0).map Operator.id
  g.takings trim g.ops.length (trim g.ops.length ready) g.waiting

/-- The most inputs that any operator waits for. -/
def longestWait (g : Graph) : Nat := g.ops.foldr (fun op most => max (g.inDegree op) most) 0

/-- How often an operator may be taken in a round that is followed by at most the given number of
rounds, where none waits longer than `wait`. -/
def roundCap (g : Graph) (wait rounds : Nat) : Nat := g.ops.length + 1 + rounds * wait

/-- The graph in the order of the first takings, and the operators that are not taken. -/
def arrange (g : Graph) : Option (List OpId) → Except GraphError (Graph × List Operator)
  | none => .error .unsettled
  | some order =>
      if order.length < g.ops.length then .error (.cycle order.length g.ops.length)
      else .ok ({ g with ops := order.eraseDups.filterMap g.operator?, sorted := true },
          g.ops.filter fun op => !order.contains op.id)

/-- The graph in dependency order, and the operators that the order does not reach. -/
def topoSort (g : Graph) : Except GraphError (Graph × List Operator) :=
  if g.sorted then .ok (g, [])
  else
    let wait := g.longestWait
    g.arrange (g.takingOrder? fun rounds => thin (g.roundCap wait rounds))

end Graph

end TensorDataflow
