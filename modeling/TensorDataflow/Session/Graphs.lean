import TensorDataflow.Session.Basic
/-!
# Graphs and tensors of a session

The operations on graphs, and on tensors wherever they are: in a graph or loose. Numbers of tensors
and operators are given out across all graphs of a session, so a tensor or an operator that moves
from one graph to another keeps its number.
-/

namespace TensorDataflow

namespace Session

variable {ε α : Type}

/-! ### Graphs -/

def graphAt (g : Nat) : SessionAct Graph := slot .graph graphs g

def newGraph : SessionAct Nat := do
  let s ← get
  let (n, graphs) := s.graphs.add .empty
  set { s with graphs }
  return n

/-- Runs an action on a graph and the machine. -/
def onGraph (g : Nat) (wrap : ε → SessionError) (act : GraphAct ε α) : SessionAct α := do
  let graph ← graphAt g
  let s ← get
  let (result, machine, graph) := act (s.machine, graph)
  set { s with machine, graphs := s.graphs.set g graph }
  Act.ofExcept (result.mapError wrap)

/-- Runs an action that may give out numbers. -/
def onDraft (g : Nat) (act : Act Draft GraphError α) : SessionAct α := do
  let graph ← graphAt g
  let s ← get
  let (result, draft) := act ⟨graph, s.ids⟩
  set { s with ids := draft.ids, graphs := s.graphs.set g draft.graph }
  Act.ofExcept (result.mapError .graph)

/-- What a graph says of itself. -/
def askGraph (g : Nat) (question : Graph → Except GraphError α) : SessionAct α := do
  Act.ofExcept ((question (← graphAt g)).mapError .graph)

/-- Gives a graph up; what its operators hold is destroyed, the buffers of its tensors stay
allocated. -/
def dropGraph (g : Nat) : SessionAct Unit := do
  let graph ← graphAt g
  onMachine (fun e : SessionError => e) (Operator.dropAll graph.ops)
  modify fun s => { s with graphs := s.graphs.erase g }

/-! ### Loose tensors and removed operators -/

def addLoose (t : Tensor) : SessionAct Nat := do
  let s ← get
  let (n, loose) := s.loose.add t
  set { s with loose }
  return n

def takeLoose (n : Nat) : SessionAct Tensor := do
  let t ← slot .looseTensor loose n
  modify fun s => { s with loose := s.loose.erase n }
  return t

/-- A tensor that no graph holds; its number among tensors and its loose number. -/
def makeLoose (shape : Shape) (stride : Option Stride) (kind : ElementKind) :
    SessionAct (TensorId × Nat) := do
  let s ← get
  let (result, draft) := Draft.makeTensor shape stride kind ⟨.empty, s.ids⟩
  set { s with ids := draft.ids }
  let t ← Act.ofExcept (result.mapError .graph)
  return (t.id, ← addLoose t)

def insertLoose (g : Nat) (n : Nat) : SessionAct TensorId := do
  let t ← takeLoose n
  onDraft g (Draft.insertTensor t)

/-- Takes all loose tensors first and then inserts them in order. -/
def insertAll (g : Nat) (ns : List Nat) : SessionAct (List TensorId) := do
  let ts ← ns.mapM takeLoose
  onDraft g (ts.mapM Draft.insertTensor)

/-- Takes a tensor out of a graph, if it is there, and gives its loose number. -/
def removeTensor (g : Nat) (id : TensorId) : SessionAct (Option Nat) := do
  match (← graphAt g).removeTensor id with
  | none => return none
  | some (t, graph) =>
      modify fun s => { s with graphs := s.graphs.set g graph }
      return some (← addLoose t)

/-- Takes an operator out of a graph, if it is there, and gives its number among the removed. -/
def removeOperator (g : Nat) (id : OpId) : SessionAct (Option Nat) := do
  match (← graphAt g).removeOperator id with
  | none => return none
  | some (op, graph) =>
      let s ← get
      let (n, removed) := s.removed.add op
      set { s with removed, graphs := s.graphs.set g graph }
      return some n

/-- Puts a removed operator into a graph and derives its edges there; it is taken first, so without
the graph it is given up. -/
def reconnect (g : Nat) (n : Nat) : SessionAct OpId := do
  let op ← slot .removedOperator removed n
  modify fun s => { s with removed := s.removed.erase n }
  match (← get).graphs.get? g with
  | some graph => modify fun s => { s with graphs := s.graphs.set g (graph.connect op) }
  | none => onMachine (fun e : SessionError => e) (Operator.dropAll [op])
  let _ ← graphAt g
  return op.id

/-! ### Descriptors -/

/-- The descriptor of an operator on a device, from the client's own library. -/
def createDescriptor (g : Nat) (id : OpId) (device : DeviceKind) (deviceId : Nat) (guarded : Bool) :
    SessionAct Nat :=
  onGraph g .graph (Graph.createDescriptor id ⟨ownBackend, guarded⟩ device deviceId)

def releaseDescriptor (g : Nat) (id : OpId) : SessionAct Unit := do
  let _ ← askGraph g fun graph => graph.operator id
  onGraph g .graph (Graph.releaseDescriptor id)

/-! ### Tensors -/

/-- How a client names a tensor. -/
inductive TensorRef where
  | member (graph : Nat) (id : TensorId)
  | loose (n : Nat)
  deriving DecidableEq, Repr

def tensorAt : TensorRef → SessionAct Tensor
  | .member g id => askGraph g fun graph => graph.tensor id
  | .loose n => slot .looseTensor loose n

/-- Puts a changed tensor back where it was. -/
def putTensor (ref : TensorRef) (t : Tensor) (s : Session) : Session :=
  match ref with
  | .member g id =>
      match s.graphs.get? g with
      | some graph => { s with graphs := s.graphs.set g (graph.modifyTensor id fun _ => t) }
      | none => s
  | .loose n => { s with loose := s.loose.set n t }

/-- Runs an action on a tensor and the machine. -/
def onTensor (ref : TensorRef) (wrap : ε → SessionError) (act : TensorAct ε α) : SessionAct α := do
  let t ← tensorAt ref
  let s ← get
  let (result, machine, t) := act (s.machine, t)
  set (putTensor ref t { s with machine })
  Act.ofExcept (result.mapError wrap)

/-- Changes a tensor by a rule that may fail. -/
def changeTensor (ref : TensorRef) (change : Tensor → Except GraphError Tensor) :
    SessionAct Unit := do
  let t ← Act.ofExcept ((change (← tensorAt ref)).mapError .graph)
  modify (putTensor ref t)

/-- Substitutes into a tensor and says whether its shape has changed. -/
def substitute (ref : TensorRef) (bindings : Bindings) : SessionAct Bool := do
  let before ← tensorAt ref
  changeTensor ref fun t => t.substitute bindings
  return (← tensorAt ref).shape ≠ before.shape

/-- The number of the address of a tensor's buffer. -/
def dataNumber (ref : TensorRef) : SessionAct (Option Nat) := do
  match (← tensorAt ref).data with
  | none => return none
  | some b => return some (← numberOf b.address)

/-- Gives a tensor a buffer or none, and answers the one it had. -/
def exchangeData (ref : TensorRef) (data : Option Buffer) : SessionAct (Option (Nat × Nat)) := do
  let old := (← tensorAt ref).data
  changeTensor ref fun t => .ok { t with data }
  numberedBuffer old

end Session

end TensorDataflow
