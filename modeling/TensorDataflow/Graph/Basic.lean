import TensorDataflow.Graph.Kind
import TensorDataflow.Machine.Basic
/-!
# Graphs

A graph owns tensors and operators and refers to them by number. The edges between operators are
never given: `Graph.connect` derives them from the producer and the consumers that the tensors of a
new operator already have, so it does not matter in which order operators arrive. Removing something
leaves the links to it in place.
-/

namespace TensorDataflow

/-- A compiled operator with the handle it was made from and the library that holds both. -/
structure Descriptor where
  library : LibraryRef
  handle : Nat
  desc : Nat
  device : DeviceKind
  deviceId : Nat
  deriving DecidableEq, Repr

/-- An operator of a graph. -/
structure Operator where
  id : OpId
  kind : OpKind
  inputs : List TensorId
  outputs : List TensorId
  predecessors : List OpId := []
  successors : List OpId := []
  descriptor : Option Descriptor := none
  deriving DecidableEq, Repr

namespace Operator

def type (op : Operator) : OpType := op.kind.type

/-- The operator on one line. -/
def text (op : Operator) : String :=
  let attributes := op.kind.attributesText
  op.type.name ++ s!"[{op.id}]" ++ (if attributes.isEmpty then "" else "(" ++ attributes ++ ")") ++
    " inputs " ++ Tensor.idsText op.inputs
    ++ " outputs " ++ Tensor.idsText op.outputs ++ " pred " ++ Tensor.idsText op.predecessors ++
      " succ " ++ Tensor.idsText op.successors

end Operator

/-- Tensors and operators, and whether the operators are known to be in dependency order. -/
structure Graph where
  tensors : List Tensor := []
  ops : List Operator := []
  sorted : Bool := false
  deriving DecidableEq, Repr, Inhabited

namespace Graph

def empty : Graph := {}

/-! ### Looking up -/

def tensor? (g : Graph) (id : TensorId) : Option Tensor := g.tensors.find? fun t => t.id = id

def operator? (g : Graph) (id : OpId) : Option Operator := g.ops.find? fun op => op.id = id

def tensor (g : Graph) (id : TensorId) : Except GraphError Tensor :=
  match g.tensor? id with
  | some t => .ok t
  | none => .error (.tensorNotFound id)

def operator (g : Graph) (id : OpId) : Except GraphError Operator :=
  match g.operator? id with
  | some op => .ok op
  | none => .error (.operatorNotFound id)

/-- The tensors with the given numbers. -/
def tensorsOf (g : Graph) (ids : List TensorId) : Except GraphError (List Tensor) :=
  ids.mapM g.tensor

/-! ### Changing -/

def modifyTensor (g : Graph) (id : TensorId) (f : Tensor → Tensor) : Graph :=
  { g with tensors := g.tensors.map fun t => if t.id = id then f t else t }

def modifyOperator (g : Graph) (id : OpId) (f : Operator → Operator) : Graph :=
  { g with ops := g.ops.map fun op => if op.id = id then f op else op }

def insertTensor (g : Graph) (t : Tensor) : Except GraphError Graph :=
  if (g.tensor? t.id).isSome then .error (.duplicateTensor t.id)
  else .ok { g with tensors := g.tensors ++ [t] }

/-- Takes a tensor out; links to it stay. -/
def removeTensor (g : Graph) (id : TensorId) : Option (Tensor × Graph) :=
  (g.tensor? id).map fun t => (t, { g with tensors := g.tensors.eraseP fun t => t.id = id })

/-- Takes an operator out; links to it stay. -/
def removeOperator (g : Graph) (id : OpId) : Option (Operator × Graph) :=
  (g.operator? id).map fun op => (op, { g with ops := g.ops.eraseP fun op => op.id = id })

/-! ### Wiring -/

def addTarget (op : OpId) (t : Tensor) : Tensor := { t with targets := t.targets ++ [op] }

def setSource (op : OpId) (t : Tensor) : Tensor := { t with source := some op }

def addPredecessor (id : OpId) (op : Operator) : Operator :=
  { op with predecessors := op.predecessors ++ [id] }

def addSuccessor (id : OpId) (op : Operator) : Operator :=
  { op with successors := op.successors ++ [id] }

/-- Makes an operator a consumer of a tensor, and a successor of the tensor's producer if there is
one. -/
def linkInput (s : Graph × Operator) (id : TensorId) : Graph × Operator :=
  let (g, op) := s
  match g.tensor? id with
  | none => (g, op)
  | some t =>
      let g := g.modifyTensor id (addTarget op.id)
      match t.source with
      | none => (g, op)
      | some source => (g.modifyOperator source (addSuccessor op.id), addPredecessor source op)

/-- Makes a consumer of an operator's output its successor. -/
def linkTarget (s : Graph × Operator) (target : OpId) : Graph × Operator :=
  (s.1.modifyOperator target (addPredecessor s.2.id), addSuccessor target s.2)

/-- Makes an operator the producer of a tensor, and a predecessor of each of the tensor's
consumers. -/
def linkOutput (s : Graph × Operator) (id : TensorId) : Graph × Operator :=
  let (g, op) := s
  match g.tensor? id with
  | none => (g, op)
  | some t => t.targets.foldl linkTarget (g.modifyTensor id (setSource op.id), op)

/-- Adds an operator and derives its edges. -/
def connect (g : Graph) (op : Operator) : Graph :=
  let (g, op) := op.outputs.foldl linkOutput (op.inputs.foldl linkInput (g, op))
  { g with ops := g.ops ++ [op], sorted := false }

/-! ### Text -/

/-- The line without the carriage return that belongs to its end. -/
def withoutReturn (line : String) : String :=
  match line.toList.reverse with
  | '\r' :: rest => String.ofList rest.reverse
  | _ => line

/-- The lines of the graph's text; a name may itself hold line ends. -/
def lines (g : Graph) : List String :=
  let body := ["Graph Tensors:"] ++ g.tensors.map (fun t => "  " ++ t.text) ++
    ["Graph Operators:"] ++ g.ops.map (fun op => "  " ++ op.text)
  body.flatMap fun line => (line.splitOn "\n").map withoutReturn

end Graph

/-- An action on a graph and the machine that it is realised on. -/
abbrev GraphAct (ε : Type) := Act (Machine × Graph) ε

namespace Graph

variable {ε : Type}

/-- An action on the machine alone. -/
def onMachine {α : Type} (act : Act Machine ε α) : GraphAct ε α :=
  Act.on Prod.fst (fun m s => (m, s.2)) act

/-- An action on the graph alone. -/
def onGraph {α : Type} (act : Act Graph ε α) : GraphAct ε α :=
  Act.on Prod.snd (fun g s => (s.1, g)) act

end Graph

/-- The next numbers to give out. -/
structure IdSupply where
  tensor : TensorId := 1
  operator : OpId := 1
  deriving DecidableEq, Repr, Inhabited

/-- A graph under construction, with the numbers that are still free. -/
structure Draft where
  graph : Graph
  ids : IdSupply
  deriving DecidableEq, Repr, Inhabited

namespace Draft

def empty : Draft := ⟨.empty, {}⟩

/-- A tensor with a new number; a tensor that cannot be made takes none. -/
def makeTensor (shape : Shape) (stride : Option Stride) (kind : ElementKind) :
    Act Draft GraphError Tensor := do
  let d ← get
  let t ← Act.ofExcept (Tensor.make d.ids.tensor shape stride kind)
  set { d with ids := { d.ids with tensor := d.ids.tensor + 1 } }
  return t

def insertTensor (t : Tensor) : Act Draft GraphError TensorId := do
  let d ← get
  let graph ← Act.ofExcept (d.graph.insertTensor t)
  set { d with graph }
  return t.id

def addTensor (shape : Shape) (stride : Option Stride) (kind : ElementKind) :
    Act Draft GraphError TensorId := do
  insertTensor (← makeTensor shape stride kind)

/-- Adds an operator with a new number. -/
def addOperator (kind : OpKind) (inputs outputs : List TensorId) : Act Draft GraphError OpId := do
  let d ← get
  let id := d.ids.operator
  set { d with
    graph := d.graph.connect { id, kind, inputs, outputs }
    ids := { d.ids with operator := id + 1 } : Draft }
  return id

/-- Adds an operator whose outputs are made from the inferred shapes and element kinds. -/
def addOp (kind : OpKind) (inputs : List TensorId) : Act Draft GraphError OpId := do
  Act.ofExcept (kind.checkArity .inputs kind.inputArity inputs.length)
  let tensors ← Act.ofExcept ((← get).graph.tensorsOf inputs)
  let shapes ← Act.ofExcept (kind.inferShapes tensors)
  let kinds ← Act.ofExcept (kind.inferKinds tensors)
  let expected := kind.outputCount
  Act.ofExcept (kind.checkArity .inferredShapes (expected, expected) shapes.length)
  Act.ofExcept (kind.checkArity .inferredKinds (expected, expected) kinds.length)
  let outputs ← (shapes.zip kinds).mapM fun (shape, kind) => addTensor shape none kind
  addOperator kind inputs outputs

/-- Fails unless each given output has the inferred shape. -/
def checkOutputs (g : Graph) (type : OpType) (index : Nat) :
    List (TensorId × Shape) → Except GraphError Unit
  | [] => .ok ()
  | (id, inferred) :: rest => do
      let t ← g.tensor id
      if t.shape = inferred then checkOutputs g type (index + 1) rest
      else throw (.outputShapeMismatch type index t.shape inferred)

/-- Adds an operator that writes to tensors which are there already. -/
def addOpWithOutputs (kind : OpKind) (inputs outputs : List TensorId) :
    Act Draft GraphError OpId := do
  Act.ofExcept (kind.checkArity .inputs kind.inputArity inputs.length)
  let expected := kind.outputCount
  Act.ofExcept (kind.checkArity .outputs (expected, expected) outputs.length)
  let g := (← get).graph
  let shapes ← Act.ofExcept (do kind.inferShapes (← g.tensorsOf inputs))
  Act.ofExcept (kind.checkArity .inferredShapes (expected, expected) shapes.length)
  Act.ofExcept (checkOutputs g kind.type 0 (outputs.zip shapes))
  addOperator kind inputs outputs

/-- Adds an operator of one output, made from the inferred shape or given, and answers the
output. -/
def build (kind : OpKind) (inputs : List TensorId) (output : Option TensorId) :
    Act Draft GraphError TensorId := do
  match output with
  | some y =>
      let _ ← addOpWithOutputs kind inputs [y]
      return y
  | none =>
      let id ← addOp kind inputs
      let op ← Act.ofExcept ((← get).graph.operator id)
      match op.outputs.head? with
      | some y => return y
      | none => throw (.arity kind.type .outputs 1 1 0)

end Draft

end TensorDataflow
